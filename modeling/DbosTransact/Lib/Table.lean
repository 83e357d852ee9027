import Mathlib.Data.List.Nodup
import Mathlib.Data.List.Perm.Subperm
import Mathlib.Tactic.Common

/-!
# Tables with a primary key

A `Table key` is a list of rows in which no two rows have the same key; the uniqueness is a field,
so a table which breaks its primary key cannot be built. The operations are the data-changing
statements of SQL, each with a lemma saying what `find?` returns afterwards.
-/

namespace Relational

/-- Rows of type `ρ` under the primary key `key`. -/
structure Table {ρ κ : Type*} (key : ρ → κ) where
  rows : List ρ
  nodup : (rows.map key).Nodup

namespace Table

variable {ρ κ : Type*} {key : ρ → κ}

def empty : Table key := ⟨[], List.nodup_nil⟩

/-- `UPDATE … SET f WHERE p`. -/
def update (t : Table key) (p : ρ → Bool) (f : ρ → ρ) (hf : ∀ r, key (f r) = key r) :
    Table key where
  rows := t.rows.map fun r => if p r then f r else r
  nodup := by
    have hkey : (key ∘ fun r => if p r then f r else r) = key := by
      funext r
      simp only [Function.comp_apply]
      split_ifs
      · exact hf r
      · rfl
    rw [List.map_map, hkey]
    exact t.nodup

/-- `DELETE … WHERE p`. -/
def delete (t : Table key) (p : ρ → Bool) : Table key where
  rows := t.rows.filter fun r => !p r
  nodup := t.nodup.sublist (List.filter_sublist.map key)

theorem delete_delete (t : Table key) (p q : ρ → Bool) :
    (t.delete p).delete q = t.delete fun r => p r || q r := by
  simp only [delete, List.filter_filter]
  congr 2
  funext r
  cases p r <;> simp

theorem mem_update {t : Table key} {p : ρ → Bool} {f : ρ → ρ} {hf : ∀ r, key (f r) = key r} {x : ρ} :
    x ∈ (t.update p f hf).rows ↔ ∃ r ∈ t.rows, (if p r then f r else r) = x :=
  List.mem_map

@[ext] theorem ext {t t' : Table key} (h : t.rows = t'.rows) : t = t' := by
  cases t
  cases t'
  simpa using h

theorem find?_rows_delete {t : Table key} {p q : ρ → Bool} (h : ∀ r ∈ t.rows, p r = true → q r = false) :
    (t.delete p).rows.find? q = t.rows.find? q := by
  simp only [delete]
  generalize t.rows = rows at h
  induction rows with
  | nil => rfl
  | cons r rows ih =>
    rw [List.forall_mem_cons] at h
    cases hp : p r with
    | true => simp [hp, h.1 hp, ih h.2]
    | false =>
      rw [List.filter_cons_of_pos (by simp [hp]), List.find?_cons, List.find?_cons, ih h.2]

theorem delete_update (t : Table key) {p q : ρ → Bool} {f : ρ → ρ} {hf : ∀ r, key (f r) = key r}
    (hq : ∀ r, q (f r) = q r) : (t.update p f hf).delete q = (t.delete q).update p f hf := by
  ext1
  simp only [delete, update, List.filter_map]
  congr 2
  funext r
  simp only [Function.comp_apply]
  split_ifs
  · rw [hq]
  · rfl

theorem forall_update {t : Table key} {p : ρ → Bool} {f : ρ → ρ} {hf : ∀ r, key (f r) = key r}
    {P : ρ → Prop} (h : ∀ r ∈ t.rows, P r) (hP : ∀ r, p r = true → P r → P (f r)) :
    ∀ r ∈ (t.update p f hf).rows, P r := by
  intro x hx
  obtain ⟨r, hr, rfl⟩ := mem_update.1 hx
  split_ifs with hp
  · exact hP r hp (h r hr)
  · exact h r hr

/-! ### Queries -/

/-- `SELECT COUNT(*) … WHERE p`. -/
def count (t : Table key) (p : ρ → Bool) : ℕ := t.rows.countP p

/-- If the rows with `q` are rows that had `p` before, apart from those under the keys `ks`, then
they are at most so many more. -/
theorem count_le_add {t t' : Table key} {p q : ρ → Bool} (ks : List κ)
    (h : ∀ r ∈ t'.rows, q r = true → key r ∈ ks ∨ ∃ r₀ ∈ t.rows, key r₀ = key r ∧ p r₀ = true) :
    t'.count q ≤ t.count p + ks.length := by
  have hnodup : ((t'.rows.filter q).map key).Nodup := t'.nodup.sublist (List.filter_sublist.map key)
  have hsub : (t'.rows.filter q).map key ⊆ (t.rows.filter p).map key ++ ks := by
    intro k hk
    obtain ⟨r, hr, rfl⟩ := List.mem_map.1 hk
    obtain ⟨hr, hq⟩ := List.mem_filter.1 hr
    rcases h r hr hq with hks | ⟨r₀, hr₀, hkey, hp⟩
    · exact List.mem_append_right _ hks
    · exact List.mem_append_left _ (hkey ▸ List.mem_map_of_mem (List.mem_filter.2 ⟨hr₀, hp⟩))
  simpa [count, List.countP_eq_length_filter] using (hnodup.subperm hsub).length_le

/-- `ORDER BY`: one of the orders in which the database may return the rows. -/
def OrderBy (le : ρ → ρ → Bool) (rows ordered : List ρ) : Prop :=
  ordered.Perm rows ∧ ordered.Pairwise fun a b => le a b = true

instance [DecidableEq ρ] (le : ρ → ρ → Bool) (rows ordered : List ρ) :
    Decidable (OrderBy le rows ordered) :=
  inferInstanceAs (Decidable (_ ∧ _))

/-- `LIMIT`, or no limit. -/
def limit : Option ℕ → List ρ → List ρ
  | none, rows => rows
  | some n, rows => rows.take n

theorem limit_sublist (n : Option ℕ) (rows : List ρ) : (limit n rows).Sublist rows := by
  cases n with
  | none => exact .refl rows
  | some n => exact List.take_sublist n rows

section Keyed

variable [DecidableEq κ]

/-- The row with key `k`. -/
def find? (t : Table key) (k : κ) : Option ρ := t.rows.find? fun r => key r = k

theorem key_of_find? {t : Table key} {k : κ} {r : ρ} (h : t.find? k = some r) : key r = k := by
  simpa using List.find?_some h

theorem mem_of_find? {t : Table key} {k : κ} {r : ρ} (h : t.find? k = some r) : r ∈ t.rows :=
  List.mem_of_find?_eq_some h

/-- A row of the table is what its key finds: this is where uniqueness is used. -/
theorem find?_of_mem {t : Table key} {r : ρ} (h : r ∈ t.rows) : t.find? (key r) = some r := by
  obtain ⟨rows, nodup⟩ := t
  simp only [find?] at h ⊢
  induction rows with
  | nil => cases h
  | cons x rows ih =>
    rw [List.map_cons, List.nodup_cons] at nodup
    rcases List.mem_cons.1 h with rfl | h
    · simp
    · have hne : key x ≠ key r := fun he => nodup.1 (he ▸ List.mem_map_of_mem h)
      rw [List.find?_cons_of_neg (by simpa using hne)]
      exact ih nodup.2 h

theorem eq_of_find? {t : Table key} {k : κ} {r x : ρ} (hr : t.find? k = some r) (hx : x ∈ t.rows)
    (hk : key x = k) : x = r := by
  have hfind := find?_of_mem hx
  rw [hk, hr] at hfind
  exact (Option.some.inj hfind).symm

theorem eq_of_key_eq {t : Table key} {r x : ρ} (hr : r ∈ t.rows) (hx : x ∈ t.rows)
    (h : key x = key r) : x = r :=
  eq_of_find? (find?_of_mem hr) hx h

theorem find?_eq_none {t : Table key} {k : κ} : t.find? k = none ↔ ∀ r ∈ t.rows, key r ≠ k := by
  simp [find?]

theorem find?_eq_some {t : Table key} {k : κ} {r : ρ} : t.find? k = some r ↔ r ∈ t.rows ∧ key r = k := by
  constructor
  · exact fun h => ⟨mem_of_find? h, key_of_find? h⟩
  · rintro ⟨hr, rfl⟩
    exact find?_of_mem hr

@[simp] theorem find?_update (t : Table key) (p : ρ → Bool) (f : ρ → ρ)
    (hf : ∀ r, key (f r) = key r) (k : κ) :
    (t.update p f hf).find? k = (t.find? k).map fun r => if p r then f r else r := by
  have hkey : ∀ r, key (if p r then f r else r) = key r := by
    intro r
    split_ifs
    · exact hf r
    · rfl
  simp only [find?, update, List.find?_map]
  congr 2
  funext r
  simp [hkey r]

theorem find?_delete (t : Table key) (p : ρ → Bool) (k : κ) :
    (t.delete p).find? k = (t.find? k).filter fun r => !p r := by
  cases h : t.find? k with
  | none =>
    rw [Option.filter_none, find?_eq_none]
    intro r hr
    exact find?_eq_none.1 h r (List.mem_filter.1 hr).1
  | some r =>
    have hk := key_of_find? h
    have hr := mem_of_find? h
    cases hp : p r with
    | false =>
      have hmem : r ∈ (t.delete p).rows := List.mem_filter.2 ⟨hr, by simp [hp]⟩
      simpa [Option.filter, hp, hk] using find?_of_mem hmem
    | true =>
      have hnone : (t.delete p).find? k = none := by
        rw [find?_eq_none]
        intro x hx hxk
        obtain ⟨hxt, hpx⟩ := List.mem_filter.1 hx
        have hxr : x = r := by
          have := find?_of_mem hxt
          rw [hxk, h] at this
          exact (Option.some.inj this).symm
        simp [hxr, hp] at hpx
      simpa [Option.filter, hp] using hnone

theorem find?_delete_of_key {t : Table key} {p : ρ → Bool} {k : κ} (h : ∀ r, key r = k → p r = false) :
    (t.delete p).find? k = t.find? k := by
  rw [find?_delete]
  cases hr : t.find? k with
  | none => rfl
  | some r => simp [Option.filter, h r (key_of_find? hr)]

/-- `INSERT … ON CONFLICT DO NOTHING`. -/
def insert (t : Table key) (r : ρ) : Table key :=
  if h : t.find? (key r) = none then
    { rows := t.rows ++ [r]
      nodup := by
        rw [List.map_append, List.nodup_append]
        refine ⟨t.nodup, by simp, ?_⟩
        intro a ha b hb hab
        obtain ⟨x, hx, rfl⟩ := List.mem_map.1 ha
        have hb : b = key r := by simpa using hb
        exact find?_eq_none.1 h x hx (hab.trans hb) }
  else t

theorem rows_insert (t : Table key) (r : ρ) :
    (t.insert r).rows = if t.find? (key r) = none then t.rows ++ [r] else t.rows := by
  unfold insert
  split_ifs <;> rfl

theorem find?_insert (t : Table key) (r : ρ) (k : κ) :
    (t.insert r).find? k = (t.find? k).or (if key r = k then some r else none) := by
  unfold insert
  split_ifs with h hk hk
  · subst hk
    simp only [find?] at h ⊢
    simp [List.find?_append, h]
  · simp only [find?]
    rw [List.find?_append]
    simp [hk]
  · subst hk
    obtain ⟨x, hx⟩ := Option.ne_none_iff_exists'.1 h
    simp [hx]
  · simp

theorem mem_of_mem_insert {t : Table key} {r x : ρ} (h : x ∈ (t.insert r).rows) :
    x ∈ t.rows ∨ x = r := by
  rw [rows_insert] at h
  split_ifs at h
  · simpa using h
  · exact .inl h

theorem delete_insert (t : Table key) {q : ρ → Bool} {r : ρ} (hr : ∀ x, key x = key r → q x = false) :
    (t.insert r).delete q = (t.delete q).insert r := by
  ext1
  rw [rows_insert, find?_delete_of_key hr]
  simp only [delete, rows_insert]
  split_ifs
  · simp [List.filter_append, hr r rfl]
  · rfl

def insertMany (t : Table key) (rs : List ρ) : Table key := rs.foldl insert t

/-- Where the key of every new row is free, or taken by that very row, the new rows are all added. -/
theorem mem_insertMany {t : Table key} {rs : List ρ} {x : ρ}
    (hold : ∀ r ∈ rs, ∀ y ∈ t.rows, key y = key r → y = r)
    (hnew : ∀ r ∈ rs, ∀ r' ∈ rs, key r = key r' → r = r') :
    x ∈ (t.insertMany rs).rows ↔ x ∈ t.rows ∨ x ∈ rs := by
  induction rs generalizing t with
  | nil => simp [insertMany]
  | cons r rs ih =>
    have hmem : ∀ y, y ∈ (t.insert r).rows ↔ y ∈ t.rows ∨ y = r := by
      intro y
      refine ⟨mem_of_mem_insert, fun hy => ?_⟩
      rw [rows_insert]
      split_ifs with hfree
      · simpa using hy
      · rcases hy with hy | rfl
        · exact hy
        · obtain ⟨z, hz⟩ := Option.ne_none_iff_exists'.1 hfree
          have hzr := hold y List.mem_cons_self z (mem_of_find? hz) (key_of_find? hz)
          exact hzr ▸ mem_of_find? hz
    show x ∈ ((t.insert r).insertMany rs).rows ↔ _
    rw [ih ?_ fun r' hr' r'' hr'' => hnew r' (.tail _ hr') r'' (.tail _ hr''), hmem, List.mem_cons, or_assoc]
    intro r' hr' y hy hkey
    rcases (hmem y).1 hy with hy | rfl
    · exact hold r' (.tail _ hr') y hy hkey
    · exact hnew y List.mem_cons_self r' (.tail _ hr') hkey

/-- `INSERT … ON CONFLICT DO UPDATE SET f`: a row which is there is changed by `f`. -/
def upsert (t : Table key) (f : ρ → ρ) (hf : ∀ r, key (f r) = key r) (r : ρ) : Table key :=
  if (t.find? (key r)).isSome then t.update (fun x => key x = key r) f hf else t.insert r

theorem find?_upsert (t : Table key) (f : ρ → ρ) (hf : ∀ r, key (f r) = key r) (r : ρ) (k : κ) :
    (t.upsert f hf r).find? k =
      if key r = k then some ((t.find? k).elim r f) else t.find? k := by
  unfold upsert
  split_ifs with h hk hk
  · subst hk
    obtain ⟨x, hx⟩ := Option.isSome_iff_exists.1 h
    simp [hx, key_of_find? hx]
  · rw [find?_update]
    cases hx : t.find? k with
    | none => rfl
    | some x =>
      have : key x ≠ key r := by rw [key_of_find? hx]; exact fun he => hk he.symm
      simp [this]
  · subst hk
    rw [find?_insert, Option.not_isSome_iff_eq_none.1 h]
    simp
  · rw [find?_insert]
    simp [hk]

theorem find?_upsert_of_eq (t : Table key) {f : ρ → ρ} {hf : ∀ r, key (f r) = key r} {r : ρ}
    (h : ∀ x, key x = key r → f x = r) (k : κ) :
    (t.upsert f hf r).find? k = if key r = k then some r else t.find? k := by
  rw [find?_upsert]
  split_ifs with hk
  · cases hx : t.find? k with
    | none => rfl
    | some x => exact congrArg some (h x ((key_of_find? hx).trans hk.symm))
  · rfl

theorem delete_upsert (t : Table key) {q : ρ → Bool} {f : ρ → ρ} {hf : ∀ r, key (f r) = key r} {r : ρ}
    (hq : ∀ x, q (f x) = q x) (hr : ∀ x, key x = key r → q x = false) :
    (t.upsert f hf r).delete q = (t.delete q).upsert f hf r := by
  unfold upsert
  rw [find?_delete_of_key hr]
  split_ifs
  · exact delete_update t hq
  · exact delete_insert t hr

/-! ### Rows that a statement leaves alone -/

omit [DecidableEq κ] in
theorem filter_update_of_not (t : Table key) {p q : ρ → Bool} {f : ρ → ρ} {hf : ∀ r, key (f r) = key r}
    (h : ∀ x, q x = true → p x = false ∧ p (f x) = false) :
    (t.update q f hf).rows.filter p = t.rows.filter p := by
  show (t.rows.map fun r => if q r then f r else r).filter p = t.rows.filter p
  induction t.rows with
  | nil => rfl
  | cons r rows ih =>
    rw [List.map_cons, List.filter_cons, List.filter_cons, ih]
    by_cases hq : q r = true
    · simp [hq, h r hq]
    · simp [hq]

theorem filter_insert_of_key (t : Table key) {p : ρ → Bool} {r : ρ} (h : ∀ x, key x = key r → p x = false) :
    (t.insert r).rows.filter p = t.rows.filter p := by
  rw [rows_insert]
  split_ifs
  · simp [List.filter_append, h r rfl]
  · rfl

theorem filter_upsert_of_key (t : Table key) {p : ρ → Bool} {f : ρ → ρ} {hf : ∀ r, key (f r) = key r} {r : ρ}
    (h : ∀ x, key x = key r → p x = false) : (t.upsert f hf r).rows.filter p = t.rows.filter p := by
  unfold upsert
  split_ifs
  · refine filter_update_of_not t fun x hx => ?_
    have hx : key x = key r := of_decide_eq_true hx
    exact ⟨h x hx, h (f x) ((hf x).trans hx)⟩
  · exact filter_insert_of_key t h

/-- `INSERT` of rows one by one, which fails on a key that is taken. -/
def insertAll (t : Table key) : List ρ → Option (Table key)
  | [] => some t
  | r :: rs => if (t.find? (key r)).isSome then none else (t.insert r).insertAll rs

theorem rows_insertAll {t t' : Table key} {rs : List ρ} (h : t.insertAll rs = some t') :
    t'.rows = t.rows ++ rs := by
  induction rs generalizing t with
  | nil =>
    cases h
    simp
  | cons r rs ih =>
    unfold insertAll at h
    split_ifs at h with hfree
    rw [ih h, rows_insert, if_pos (Option.not_isSome_iff_eq_none.1 hfree), List.append_assoc]
    rfl

theorem exists_insertAll {t : Table key} {rs : List ρ} (hfree : ∀ r ∈ rs, t.find? (key r) = none)
    (hnodup : (rs.map key).Nodup) : ∃ t', t.insertAll rs = some t' := by
  induction rs generalizing t with
  | nil => exact ⟨t, rfl⟩
  | cons r rs ih =>
    rw [List.map_cons, List.nodup_cons] at hnodup
    unfold insertAll
    rw [hfree r List.mem_cons_self, if_neg (by simp)]
    refine ih (fun r' hr' => ?_) hnodup.2
    have hne : key r ≠ key r' := fun heq => hnodup.1 (heq ▸ List.mem_map_of_mem hr')
    rw [find?_insert, hfree r' (List.mem_cons_of_mem _ hr'), if_neg hne]
    rfl

theorem insertAll_keys {t t' : Table key} {rs : List ρ} (h : t.insertAll rs = some t') :
    (∀ r ∈ rs, t.find? (key r) = none) ∧ (rs.map key).Nodup := by
  have hnodup := t'.nodup
  rw [rows_insertAll h, List.map_append, List.nodup_append] at hnodup
  obtain ⟨-, hrs, hdisjoint⟩ := hnodup
  refine ⟨fun r hr => find?_eq_none.2 fun x hx heq => ?_, hrs⟩
  exact hdisjoint _ (List.mem_map_of_mem hx) _ (List.mem_map_of_mem hr) heq

end Keyed

end Table

/-! ### Joins -/

section Join

variable {ε ρ ρ' κ : Type*}

/-- `SELECT select FROM es JOIN rows ON on`. -/
def join (es : List ε) (rows : List ρ) (on : ε → ρ → Bool) (select : ε → ρ → ρ') : List ρ' :=
  es.flatMap fun e => (rows.filter (on e)).map (select e)

theorem mem_join {es : List ε} {rows : List ρ} {on : ε → ρ → Bool} {select : ε → ρ → ρ'} {x : ρ'} :
    x ∈ join es rows on select ↔ ∃ e ∈ es, ∃ r ∈ rows, on e r = true ∧ x = select e r := by
  simp only [join, List.mem_flatMap, List.mem_map, List.mem_filter, and_assoc, eq_comm (a := x)]

theorem nodup_join {es : List ε} {rows : List ρ} {on : ε → ρ → Bool} {select : ε → ρ → ρ'} {key : ρ' → κ}
    (hrows : rows.Nodup)
    (hin : ∀ e ∈ es, ∀ r ∈ rows, ∀ r' ∈ rows, on e r = true → on e r' = true →
      key (select e r) = key (select e r') → r = r')
    (hacross : es.Pairwise fun e e' => ∀ r r', key (select e r) ≠ key (select e' r')) :
    ((join es rows on select).map key).Nodup := by
  induction es with
  | nil => simp [join]
  | cons e es ih =>
    rw [List.pairwise_cons] at hacross
    simp only [join, List.flatMap_cons, List.map_append, List.map_map]
    rw [List.nodup_append]
    refine ⟨?_, ih (fun e' he' => hin e' (List.mem_cons_of_mem _ he')) hacross.2, ?_⟩
    · refine List.Nodup.map_on (fun r hr r' hr' heq => ?_) (hrows.filter _)
      obtain ⟨hr, hon⟩ := List.mem_filter.1 hr
      obtain ⟨hr', hon'⟩ := List.mem_filter.1 hr'
      exact hin e List.mem_cons_self r hr r' hr' hon hon' heq
    · intro k hk k' hk' heq
      obtain ⟨r, -, rfl⟩ := List.mem_map.1 hk
      obtain ⟨x, hx, rfl⟩ := List.mem_map.1 hk'
      obtain ⟨e', he', r', -, -, rfl⟩ := mem_join.1 hx
      exact hacross.1 e' he' r r' heq

/-- `INSERT INTO t SELECT … FROM es JOIN t`, where the first column of the key is set by the entry to a
value that is not in use: it succeeds, and its keys are distinct. -/
theorem nodup_copies {o : Type*} {wf : ρ → o} {rest : ρ → κ} {t : Table fun r => (wf r, rest r)}
    {es : List ε} {on : ε → ρ → Bool} {select : ε → ρ → ρ} {source target : ε → o}
    (hselect : ∀ e r, wf (select e r) = target e ∧ rest (select e r) = rest r)
    (hon : ∀ e r, on e r = true → wf r = source e) (hes : (es.map target).Nodup) :
    ((join es t.rows on select).map fun r => (wf r, rest r)).Nodup := by
  have hrows : t.rows.Nodup := List.Nodup.of_map _ t.nodup
  refine nodup_join hrows (fun e _ r hr r' hr' h h' heq => ?_) ?_
  · rw [Prod.mk.injEq, (hselect e r).2, (hselect e r').2] at heq
    refine List.inj_on_of_nodup_map t.nodup hr hr' (Prod.ext ?_ heq.2)
    exact (hon e r h).trans (hon e r' h').symm
  · rw [List.nodup_iff_pairwise_ne, List.pairwise_map] at hes
    refine hes.imp fun hne r r' heq => hne ?_
    rw [Prod.mk.injEq, (hselect _ r).1, (hselect _ r').1] at heq
    exact heq.1

theorem exists_copies {o : Type*} [DecidableEq o] [DecidableEq κ] {wf : ρ → o} {rest : ρ → κ}
    {t : Table fun r => (wf r, rest r)} {es : List ε} {on : ε → ρ → Bool} {select : ε → ρ → ρ}
    {source target : ε → o} (hselect : ∀ e r, wf (select e r) = target e ∧ rest (select e r) = rest r)
    (hon : ∀ e r, on e r = true → wf r = source e) (hes : (es.map target).Nodup)
    (hfresh : ∀ e ∈ es, ∀ r ∈ t.rows, wf r ≠ target e) :
    ∃ t', t.insertAll (join es t.rows on select) = some t' := by
  refine Table.exists_insertAll (fun x hx => ?_) (nodup_copies hselect hon hes)
  obtain ⟨e, he, r, -, -, rfl⟩ := mem_join.1 hx
  refine Table.find?_eq_none.2 fun y hy heq => hfresh e he y hy ?_
  exact (Prod.mk.inj heq).1.trans (hselect e r).1

theorem mapM_eq_some {f : ε → Option ρ} {es : List ε} {rows : List ρ} :
    es.mapM f = some rows ↔ es.map f = rows.map some := by
  induction es generalizing rows with
  | nil => cases rows <;> simp
  | cons e es ih =>
    simp only [List.mapM_cons, Option.bind_eq_bind, Option.bind_eq_some_iff, Option.pure_def, Option.some.injEq]
    constructor
    · rintro ⟨r, hr, rs, hrs, rfl⟩
      simp [hr, ih.1 hrs]
    · intro h
      cases rows with
      | nil => cases h
      | cons r rs =>
        rw [List.map_cons, List.map_cons, List.cons.injEq] at h
        exact ⟨r, h.1, rs, ih.2 h.2, rfl⟩

theorem mem_of_mapM {f : ε → Option ρ} {es : List ε} {rows : List ρ} (h : es.mapM f = some rows) {r : ρ} :
    r ∈ rows ↔ ∃ e ∈ es, f e = some r := by
  rw [← List.mem_map (f := f), mapM_eq_some.1 h]
  simp

end Join

end Relational
