import Mathlib.Data.List.Forall2
import Mathlib.Data.List.Infix
import Mathlib.Logic.Relation
import Mathlib.Tactic.Common

/-!
# Code that is replayed

Sequential code asks for one operation after another and goes on with what it is answered; each operation is
given the next `width o` numbers. `Follows width B p π` says that `π` is a path of the code `p` whose answers
all meet `B`, typically "a journal accounts for this answer". If `B` determines the answer of an operation
with a given number up to a relation to which the code is blind (`Program.Respects`), all paths agree as far
as both have come.
-/

namespace Replay

/-- Code that asks for operations and goes on with their answers. -/
inductive Program (ω α : Type*)
  | done
  | ask (o : ω) (k : α → Program ω α)

structure Entry (ω α : Type*) where
  op : ω
  id : ℕ
  answer : α

def Entry.key {ω α : Type*} (e : Entry ω α) : ω × ℕ := (e.op, e.id)

structure Path (ω α : Type*) where
  trace : List (Entry ω α)
  rest : Program ω α
  next : ℕ

variable {ω α : Type*}

namespace Program

/-- Every operation that the code may ask for meets `P`. -/
def All (P : ω → Prop) : Program ω α → Prop
  | .done => True
  | .ask o k => P o ∧ ∀ a, (k a).All P

/-- The code goes on in the same way after two answers in the relation `r`. -/
def Respects (r : ω → α → α → Prop) : Program ω α → Prop
  | .done => True
  | .ask o k => (∀ a a', r o a a' → k a = k a') ∧ ∀ a, (k a).Respects r

/-- The code is then blind to the equivalence that `r` generates. -/
theorem Respects.eqvGen {r : ω → α → α → Prop} {p : Program ω α} (h : p.Respects r) :
    p.Respects fun o => Relation.EqvGen (r o) := by
  induction p with
  | done => trivial
  | ask o k ih =>
    refine ⟨fun a a' hr => ?_, fun a => ih a (h.2 a)⟩
    induction hr with
    | rel a a' hr => exact h.1 a a' hr
    | refl => rfl
    | symm _ _ _ ih => exact ih.symm
    | trans _ _ _ _ _ ih ih' => exact ih.trans ih'

end Program

namespace Path

def start (p : Program ω α) : Path ω α := ⟨[], p, 0⟩

/-- The operation asked for is answered, and has used up `w` numbers. -/
def answer (π : Path ω α) (w : ℕ) (a : α) : Path ω α :=
  match π.rest with
  | .done => π
  | .ask o k => ⟨π.trace ++ [⟨o, π.next, a⟩], k a, π.next + w⟩

def current (π : Path ω α) : Option (ω × ℕ) :=
  match π.rest with
  | .done => none
  | .ask o _ => some (o, π.next)

/-- The operations with their numbers, the one asked for last included. -/
def assigned (π : Path ω α) : List (ω × ℕ) :=
  π.trace.map Entry.key ++ π.current.toList

end Path

/-- `π` is a path of the code `p`, and all its answers meet `B`. -/
inductive Follows (width : ω → ℕ) (B : Entry ω α → Prop) (p : Program ω α) : Path ω α → Prop
  | start : Follows width B p (Path.start p)
  | answer {tr : List (Entry ω α)} {o : ω} {k : α → Program ω α} {n : ℕ} {a : α} :
      Follows width B p ⟨tr, .ask o k, n⟩ → B ⟨o, n, a⟩ →
        Follows width B p ⟨tr ++ [⟨o, n, a⟩], k a, n + width o⟩

variable {width : ω → ℕ} {B B' : Entry ω α → Prop} {p : Program ω α} {π π' : Path ω α}

namespace Follows

theorem mono (hB : ∀ e, B e → B' e) (h : Follows width B p π) : Follows width B' p π := by
  induction h with
  | start => exact .start
  | answer _ hb ih => exact .answer ih (hB _ hb)

theorem snoc (h : Follows width B p π) {o : ω} {k : α → Program ω α} (hrest : π.rest = .ask o k)
    {a : α} (ha : B ⟨o, π.next, a⟩) : Follows width B p (π.answer (width o) a) := by
  obtain ⟨tr, rest, n⟩ := π
  obtain rfl : rest = .ask o k := hrest
  exact .answer h ha

theorem all {P : ω → Prop} (hp : p.All P) (h : Follows width B p π) : π.rest.All P := by
  induction h with
  | start => exact hp
  | answer _ _ ih => exact ih.2 _

theorem respects {r : ω → α → α → Prop} (hp : p.Respects r) (h : Follows width B p π) :
    π.rest.Respects r := by
  induction h with
  | start => exact hp
  | answer _ _ ih => exact ih.2 _

theorem exists_before (h : Follows width B p π) {m : ℕ} (hm : m < π.trace.length) :
    ∃ tr o k n a, Follows width B p ⟨tr, .ask o k, n⟩ ∧ tr.length = m ∧
      tr ++ [⟨o, n, a⟩] <+: π.trace ∧ n + width o ≤ π.next ∧ B ⟨o, n, a⟩ := by
  induction h with
  | start => cases hm
  | @answer tr o k n a hπ hb ih =>
    rw [List.length_append, List.length_singleton] at hm
    by_cases hlt : m < tr.length
    · obtain ⟨tr', o', k', n', a', hπ', hlen, hpre, hn, hb'⟩ := ih hlt
      refine ⟨tr', o', k', n', a', hπ', hlen, hpre.trans (List.prefix_append _ _), ?_, hb'⟩
      exact hn.trans (Nat.le_add_right n (width o))
    · exact ⟨tr, o, k, n, a, hπ, by omega, List.prefix_rfl, le_rfl, hb⟩

section Unique

variable {r : ω → α → α → Prop}

/-- The two entries are the same operation under the same number, with answers in the relation. -/
structure Agree (r : ω → α → α → Prop) (e e' : Entry ω α) : Prop where
  op : e.op = e'.op
  id : e.id = e'.id
  answer : r e.op e.answer e'.answer

theorem map_eq_of_agree {tr tr' : List (Entry ω α)} (h : List.Forall₂ (Agree r) tr tr') :
    tr.map Entry.key = tr'.map Entry.key := by
  induction h with
  | nil => rfl
  | cons he _ ih => rw [List.map_cons, List.map_cons, ih, Entry.key, Entry.key, he.op, he.id]

/-- **Paths of the same length are the same**, up to what the code is blind to. -/
theorem unique (hp : p.Respects r) (hB : ∀ o n a a', B ⟨o, n, a⟩ → B ⟨o, n, a'⟩ → r o a a')
    (h : Follows width B p π) (h' : Follows width B p π')
    (hlen : π.trace.length = π'.trace.length) :
    π.rest = π'.rest ∧ π.next = π'.next ∧ List.Forall₂ (Agree r) π.trace π'.trace := by
  induction h generalizing π' with
  | start =>
    cases h' with
    | start => exact ⟨rfl, rfl, .nil⟩
    | answer => simp [Path.start] at hlen
  | @answer tr o k n a hπ ha ih =>
    cases h' with
    | start => simp [Path.start] at hlen
    | @answer tr' o' k' n' a' hπ' ha' =>
      obtain ⟨hrest, hnext, htr⟩ := ih hπ' (by simpa using hlen)
      obtain ⟨rfl, rfl⟩ := Program.ask.inj hrest
      obtain rfl : n = n' := hnext
      have hr : r o a a' := hB o n a a' ha ha'
      refine ⟨(hπ.respects hp).1 a a' hr, rfl, List.rel_append htr ?_⟩
      exact .cons ⟨rfl, rfl, hr⟩ .nil

theorem exists_agree (hp : p.Respects r) (hB : ∀ o n a a', B ⟨o, n, a⟩ → B ⟨o, n, a'⟩ → r o a a')
    (h : Follows width B p π) (h' : Follows width B p π')
    (hlen : π.trace.length < π'.trace.length) :
    ∃ tr o k n a, π.rest = .ask o k ∧ π.next = n ∧ List.Forall₂ (Agree r) π.trace tr ∧
      tr ++ [⟨o, n, a⟩] <+: π'.trace ∧ n + width o ≤ π'.next := by
  obtain ⟨tr, o, k, n, a, hπ, htr, hpre, hn, -⟩ := h'.exists_before hlen
  obtain ⟨hrest, hnext, hagree⟩ := h.unique hp hB hπ htr.symm
  exact ⟨tr, o, k, n, a, hrest, hnext, hagree, hpre, hn⟩

theorem assigned_isPrefix (hp : p.Respects r)
    (hB : ∀ o n a a', B ⟨o, n, a⟩ → B ⟨o, n, a'⟩ → r o a a') (h : Follows width B p π)
    (h' : Follows width B p π') (hlen : π.trace.length ≤ π'.trace.length) :
    π.assigned <+: π'.assigned := by
  obtain hlt | heq := hlen.lt_or_eq
  · obtain ⟨tr, o, k, n, a, hrest, rfl, hagree, hpre, -⟩ := exists_agree hp hB h h' hlt
    have hassigned : π.assigned = List.map Entry.key (tr ++ [⟨o, π.next, a⟩]) := by
      rw [Path.assigned, Path.current, hrest, map_eq_of_agree hagree, List.map_append]
      rfl
    rw [hassigned]
    exact (hpre.map _).trans (List.prefix_append _ _)
  · obtain ⟨hrest, hnext, hagree⟩ := h.unique hp hB h' heq
    have hassigned : π.assigned = π'.assigned := by
      rw [Path.assigned, Path.assigned, Path.current, Path.current, hrest, hnext,
        map_eq_of_agree hagree]
    rw [hassigned]

/-- **The numbers are those of every other execution**, as far as both have come. -/
theorem assigned_comparable (hp : p.Respects r)
    (hB : ∀ o n a a', B ⟨o, n, a⟩ → B ⟨o, n, a'⟩ → r o a a') (h : Follows width B p π)
    (h' : Follows width B p π') : π.assigned <+: π'.assigned ∨ π'.assigned <+: π.assigned := by
  obtain hle | hle := le_total π.trace.length π'.trace.length
  · exact .inl (assigned_isPrefix hp hB h h' hle)
  · exact .inr (assigned_isPrefix hp hB h' h hle)

theorem getElem_of_isPrefix {tr tr' : List (Entry ω α)} {e : Entry ω α} (h : tr ++ [e] <+: tr')
    (hlt : tr.length < tr'.length) : tr'[tr.length] = e := by
  obtain ⟨l, rfl⟩ := h
  simp

/-- **What is answered in one execution is answered in the other**, as far as both have come. -/
theorem agree (hp : p.Respects r) (hB : ∀ o n a a', B ⟨o, n, a⟩ → B ⟨o, n, a'⟩ → r o a a')
    (h : Follows width B p π) (h' : Follows width B p π') {m : ℕ} (hm : m < π.trace.length)
    (hm' : m < π'.trace.length) : Agree r π.trace[m] π'.trace[m] := by
  obtain ⟨tr, o, k, n, a, hπ, rfl, hpre, -, ha⟩ := h.exists_before hm
  obtain ⟨tr', o', k', n', a', hπ', hlen, hpre', -, ha'⟩ := h'.exists_before hm'
  obtain ⟨hrest, hnext, -⟩ := hπ.unique hp hB hπ' hlen.symm
  obtain ⟨rfl, -⟩ := Program.ask.inj hrest
  obtain rfl : n = n' := hnext
  have hentry : π.trace[tr.length] = ⟨o, n, a⟩ := getElem_of_isPrefix hpre hm
  have hentry' : π'.trace[tr.length] = ⟨o, n, a'⟩ := by
    simp only [← hlen]
    exact getElem_of_isPrefix hpre' (hlen ▸ hm')
  rw [hentry, hentry']
  exact ⟨rfl, rfl, hB o n a a' ha ha'⟩

/-- **No number belongs to two operations.** -/
theorem owner_unique (hp : p.Respects r) (hB : ∀ o n a a', B ⟨o, n, a⟩ → B ⟨o, n, a'⟩ → r o a a')
    (h : Follows width B p π) (h' : Follows width B p π') {o o' : ω} {k k' : α → Program ω α}
    (ho : π.rest = .ask o k) (ho' : π'.rest = .ask o' k') {m : ℕ} (hm : π.next ≤ m)
    (hm₁ : m < π.next + width o) (hm' : π'.next ≤ m) (hm₁' : m < π'.next + width o') :
    o = o' ∧ π.next = π'.next := by
  obtain hlt | heq | hlt := lt_trichotomy π.trace.length π'.trace.length
  · -- the other execution has left the numbers of this operation behind
    obtain ⟨-, o₁, k₁, n, -, hrest, rfl, -, -, hn⟩ := exists_agree hp hB h h' hlt
    obtain ⟨rfl, -⟩ := Program.ask.inj (ho.symm.trans hrest)
    omega
  · obtain ⟨hrest, hnext, -⟩ := h.unique hp hB h' heq
    obtain ⟨rfl, -⟩ := Program.ask.inj (ho.symm.trans (hrest.trans ho'))
    exact ⟨rfl, hnext⟩
  · obtain ⟨-, o₁, k₁, n, -, hrest, rfl, -, -, hn⟩ := exists_agree hp hB h' h hlt
    obtain ⟨rfl, -⟩ := Program.ask.inj (ho'.symm.trans hrest)
    omega

end Unique

end Follows

end Replay
