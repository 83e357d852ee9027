import Mathlib.Data.List.Nodup
import Mathlib.Data.List.Perm.Subperm
import Mathlib.Logic.Relation
import Mathlib.Tactic.Common

/-!
# Breadth-first walks without a visited set

`walk` takes one node after the other from the queue and appends its children; it remembers no node that it
has seen. Where no node has two parents, a walk from `w` visits every node below `w` once, as long as `w` is
not below itself; and if it is, the walk never ends.
-/

namespace Forest

variable {κ : Type*}

/-- The walk; `none` if `fuel` rounds do not empty the queue. -/
def walk (next : κ → List κ) : ℕ → List κ → List κ → Option (List κ)
  | _, [], found => some found
  | 0, _ :: _, _ => none
  | fuel + 1, k :: queue, found => walk next fuel (queue ++ next k) (found ++ next k)

/-- The nodes below `w`. -/
def Below (next : κ → List κ) : κ → κ → Prop := Relation.TransGen fun a b => b ∈ next a

structure IsForest (next : κ → List κ) : Prop where
  nodup : ∀ k, (next k).Nodup
  parent : ∀ {a b x}, x ∈ next a → x ∈ next b → a = b

variable {next : κ → List κ} {w : κ}

theorem Below.exists_child {k : κ} (h : Below next k k) : ∃ x ∈ next k, Below next x x := by
  obtain ⟨x, hx, hxk⟩ := Relation.TransGen.head'_iff.1 h
  exact ⟨x, hx, Relation.TransGen.tail' hxk hx⟩

theorem Below.of_added {next' : κ → List κ} {p x a b : κ}
    (hnew : ∀ c d, d ∈ next' c → d ∈ next c ∨ c = p ∧ d = x) (h : Below next' a b) :
    Below next a b ∨ (a = p ∨ Below next a p) ∧ (x = b ∨ Below next x b) := by
  induction h with
  | single hb =>
    rcases hnew _ _ hb with hb | ⟨rfl, rfl⟩
    · exact .inl (.single hb)
    · exact .inr ⟨.inl rfl, .inl rfl⟩
  | @tail c d _ hd ih =>
    rcases hnew c d hd with hd | ⟨rfl, rfl⟩
    · rcases ih with hc | ⟨hp, hc⟩
      · exact .inl (hc.tail hd)
      · refine .inr ⟨hp, .inr ?_⟩
        rcases hc with rfl | hc
        · exact .single hd
        · exact hc.tail hd
    · rcases ih with hc | ⟨hp, -⟩
      · exact .inr ⟨.inr hc, .inl rfl⟩
      · exact .inr ⟨hp, .inl rfl⟩

theorem Below.mono {next' : κ → List κ} {a b : κ} (hsub : ∀ c, next c ⊆ next' c)
    (h : Below next a b) : Below next' a b :=
  Relation.TransGen.mono (fun c _ hd => hsub c hd) a b h

theorem Below.rank_lt (rank : κ → ℕ) (h : ∀ a b, b ∈ next a → rank a < rank b) {a b : κ}
    (hab : Below next a b) : rank a < rank b := by
  induction hab with
  | single hb => exact h _ _ hb
  | tail _ hd ih => exact Nat.lt_trans ih (h _ _ hd)

theorem walk_eq_none_of_mem {k : κ} {queue found : List κ} (hk : k ∈ queue) (hcycle : Below next k k)
    (fuel : ℕ) : walk next fuel queue found = none := by
  induction fuel generalizing k queue found with
  | zero =>
    cases queue with
    | nil => cases hk
    | cons => rfl
  | succ fuel ih =>
    cases queue with
    | nil => cases hk
    | cons x queue =>
      rcases List.mem_cons.1 hk with rfl | hk
      · -- the cycle goes on through a child
        obtain ⟨y, hy, hcycle⟩ := hcycle.exists_child
        exact ih (List.mem_append_right _ hy) hcycle
      · exact ih (List.mem_append_left _ hk) hcycle

/-- **A walk from a node below itself never ends.** -/
theorem walk_eq_none (h : Below next w w) (fuel : ℕ) :
    walk next fuel (next w) (next w) = none := by
  obtain ⟨x, hx, hcycle⟩ := h.exists_child
  exact walk_eq_none_of_mem hx hcycle fuel

/-- The walk from `w` with the nodes `done` behind it and `queue` before it. -/
structure Walking (next : κ → List κ) (w : κ) (done queue : List κ) : Prop where
  nodup : (done ++ queue).Nodup
  below : ∀ x ∈ done ++ queue, Below next w x
  parent : ∀ x ∈ done ++ queue, x ∈ next w ∨ ∃ y ∈ done, x ∈ next y
  closed : ∀ y ∈ done, ∀ x ∈ next y, x ∈ done ++ queue
  root : ∀ x ∈ next w, x ∈ done ++ queue

theorem Walking.start (hnext : IsForest next) : Walking next w [] (next w) where
  nodup := hnext.nodup w
  below _ hx := Relation.TransGen.single hx
  parent _ hx := .inl hx
  closed _ hy := by cases hy
  root _ hx := hx

/-- A child of the next node has not been seen: its only parent is that node. -/
theorem Walking.not_mem {done queue : List κ} {k x : κ} (hnext : IsForest next)
    (hw : ¬ Below next w w) (h : Walking next w done (k :: queue)) (hx : x ∈ next k) :
    x ∉ done ++ k :: queue := by
  intro hmem
  have hk : k ∈ done ++ k :: queue := by simp
  rcases h.parent x hmem with hroot | ⟨y, hy, hxy⟩
  · obtain rfl := hnext.parent hx hroot
    exact hw (h.below k hk)
  · obtain rfl := hnext.parent hx hxy
    exact (List.nodup_append.1 h.nodup).2.2 k hy k List.mem_cons_self rfl

theorem Walking.advance {done queue : List κ} {k : κ} (hnext : IsForest next) (hw : ¬ Below next w w)
    (h : Walking next w done (k :: queue)) : Walking next w (done ++ [k]) (queue ++ next k) := by
  have hlist : (done ++ [k]) ++ (queue ++ next k) = (done ++ k :: queue) ++ next k := by simp
  have hk : k ∈ done ++ k :: queue := by simp
  constructor
  · rw [hlist, List.nodup_append]
    refine ⟨h.nodup, hnext.nodup k, fun a ha b hb hab => ?_⟩
    exact h.not_mem hnext hw hb (hab ▸ ha)
  · intro x hx
    rcases List.mem_append.1 (hlist ▸ hx) with hx | hx
    · exact h.below x hx
    · exact (h.below k hk).tail hx
  · intro x hx
    rcases List.mem_append.1 (hlist ▸ hx) with hx | hx
    · exact (h.parent x hx).imp_right fun ⟨y, hy, hxy⟩ => ⟨y, List.mem_append_left _ hy, hxy⟩
    · exact .inr ⟨k, by simp, hx⟩
  · intro y hy x hx
    rw [hlist]
    rcases List.mem_append.1 hy with hy | hy
    · exact List.mem_append_left _ (h.closed y hy x hx)
    · obtain rfl := List.mem_singleton.1 hy
      exact List.mem_append_right _ hx
  · intro x hx
    rw [hlist]
    exact List.mem_append_left _ (h.root x hx)

theorem Walking.mem_iff {done : List κ} (h : Walking next w done []) {x : κ} :
    x ∈ done ↔ Below next w x := by
  have hdone : done ++ [] = done := List.append_nil done
  refine ⟨fun hx => h.below x (hdone.symm ▸ hx), fun hx => ?_⟩
  induction hx with
  | single hx => exact hdone ▸ h.root _ hx
  | tail _ hx ih => exact hdone ▸ h.closed _ ih _ hx

theorem Walking.exists_walk {done queue nodes : List κ} {fuel : ℕ} (hnext : IsForest next)
    (hw : ¬ Below next w w) (hnodes : ∀ k, next k ⊆ nodes) (h : Walking next w done queue)
    (hfuel : nodes.length ≤ fuel + done.length) :
    ∃ found, walk next fuel queue (done ++ queue) = some found ∧ found.Nodup ∧
      ∀ x, x ∈ found ↔ Below next w x := by
  induction fuel generalizing done queue with
  | zero =>
    cases queue with
    | nil => exact ⟨done ++ [], rfl, h.nodup, fun x => by rw [List.append_nil]; exact h.mem_iff⟩
    | cons k queue =>
      -- every node that was found is a node, so none can be left
      have hsub : done ++ k :: queue ⊆ nodes := by
        intro x hx
        rcases h.parent x hx with hx | ⟨y, -, hx⟩
        · exact hnodes w hx
        · exact hnodes y hx
      have hle := (h.nodup.subperm hsub).length_le
      simp only [List.length_append, List.length_cons] at hle
      omega
  | succ fuel ih =>
    cases queue with
    | nil => exact ⟨done ++ [], rfl, h.nodup, fun x => by rw [List.append_nil]; exact h.mem_iff⟩
    | cons k queue =>
      have hlist : (done ++ [k]) ++ (queue ++ next k) = (done ++ k :: queue) ++ next k := by simp
      have := ih (h.advance hnext hw) (by simp only [List.length_append, List.length_singleton]; omega)
      rwa [hlist] at this

/-- **A walk from a node that is not below itself ends**, with every node below it exactly once. -/
theorem exists_walk {nodes : List κ} {fuel : ℕ} (hnext : IsForest next) (hw : ¬ Below next w w)
    (hnodes : ∀ k, next k ⊆ nodes) (hfuel : nodes.length ≤ fuel) :
    ∃ found, walk next fuel (next w) (next w) = some found ∧ found.Nodup ∧
      ∀ x, x ∈ found ↔ Below next w x :=
  (Walking.start hnext).exists_walk hnext hw hnodes hfuel

end Forest
