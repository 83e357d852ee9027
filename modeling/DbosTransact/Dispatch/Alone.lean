import DbosTransact.Dispatch.Claims

/-!
# A call of `DequeueWorkflows` with nobody beside it

While only one call takes steps and no row is locked, the query passes over no candidate, and the call
returns the first rows in one of the orders in which the database may return them, up to the budget.
-/

namespace Dbos.Dispatch

open Relational RepeatableRead Lts Queue

variable {κ : Type*} {calls : κ → Call} {s s' t : State κ} {a : Action κ} {k : κ} {x : Txn} {isLatest : Bool}
  {r : WorkflowRow} {rest taken ordered : List WorkflowRow} {now : Int} {ids : List String}

/-- The rows that the call may claim, in an order in which the database may return them. -/
def Ordering (c : Call) (t : State κ) (isLatest : Bool) (ordered : List WorkflowRow) : Prop :=
  (∃ latest, c.ReadsLatest t.versions latest ∧ isLatest = c.isLatestVersion latest) ∧
    Table.OrderBy dispatchOrder (t.store.table.rows.filter (c.Eligible isLatest)) ordered

def State.FirstRows (calls : κ → Call) (t : State κ) (k : κ) (ids : List String) : Prop :=
  ∃ now, (calls k).maxTasks now t.store.table = none ∧ ids = [] ∨
    ∃ maxTasks isLatest ordered, (calls k).maxTasks now t.store.table = some maxTasks ∧
      Ordering (calls k) t isLatest ordered ∧
      ids = (Table.limit (maxTasks.map Int.toNat) ordered).map (·.workflowID)

theorem Ordering.find? {c : Call} (h : Ordering c t isLatest ordered) (hr : r ∈ ordered) :
    t.store.table.find? r.workflowID = some r ∧ c.Eligible isLatest r = true := by
  obtain ⟨hrow, heligible⟩ := List.mem_filter.1 (h.2.1.mem_iff.1 hr)
  exact ⟨Table.find?_of_mem hrow, heligible⟩

theorem Ordering.resultOf_eq (h : Ordering (calls k) t isLatest ordered) (hstore : s.store = t.store)
    (htaken : ∀ r ∈ taken, r ∈ ordered) : resultOf calls s k taken = taken.map (·.workflowID) := by
  refine List.filter_eq_self.2 fun id hid => ?_
  obtain ⟨r, hr, rfl⟩ := List.mem_map.1 hid
  obtain ⟨hfind, heligible⟩ := h.find? (htaken r hr)
  obtain ⟨hstatus, howned⟩ := Call.enqueued_of_eligible heligible
  rw [hstore, hfind]
  simp [hstatus, howned]

/-! ### What it can return -/

/-- The transaction has read the state `t`. -/
structure Txn.Reads (x : Txn) (c : Call) (t : State κ) : Prop where
  snapshot : x.snapshot = t.store
  versions : x.versions = t.versions
  maxTasks : c.maxTasks x.reading t.store.table = some x.maxTasks

/-- A phase of a call that has been by itself since the state `t`. -/
def Phase.Solo (calls : κ → Call) (t : State κ) (k : κ) : Phase → Prop
  | .idle | .failed => True
  | .counted x => x.Reads (calls k) t
  | .versioned x isLatest =>
    x.Reads (calls k) t ∧ ∃ latest, (calls k).ReadsLatest t.versions latest ∧
      isLatest = (calls k).isLatestVersion latest
  | .scanning x isLatest rest taken =>
    x.Reads (calls k) t ∧ Ordering (calls k) t isLatest (taken ++ rest) ∧ ∀ m ∈ x.limit, taken.length ≤ m
  | .claimed x isLatest taken _ =>
    x.Reads (calls k) t ∧ ∃ ordered, Ordering (calls k) t isLatest ordered ∧ taken = Table.limit x.limit ordered
  | .returned ids => t.FirstRows calls k ids

/-- The call has been by itself since the state `t`. -/
structure Solo (calls : κ → Call) (t : State κ) (k : κ) (s : State κ) : Prop where
  phase : (s.phase k).Solo calls t k
  still : (s.phase k).over = false → s.store = t.store ∧ s.versions = t.versions ∧ ∀ id, ¬ s.LockedByOther k id

theorem taken_eq_limit (hwithin : ∀ m ∈ x.limit, taken.length ≤ m) (hend : rest = [] ∨ x.full taken = true) :
    taken = Table.limit x.limit (taken ++ rest) := by
  cases hlimit : x.limit with
  | none =>
    have hrest : rest = [] := hend.resolve_right (by simp [Txn.full, hlimit])
    simp [hrest, Table.limit]
  | some m =>
    have hle := hwithin m hlimit
    rcases hend with rfl | hfull
    · simp [Table.limit, hle]
    · have hge : m ≤ taken.length := by simpa [Txn.full, hlimit] using hfull
      obtain rfl : taken.length = m := Nat.le_antisymm hle hge
      simp [Table.limit]

theorem firstRows_of_claimed (h : (Phase.claimed x isLatest taken now).Solo calls t k) (hstore : s.store = t.store) :
    t.FirstRows calls k (resultOf calls s k taken) := by
  obtain ⟨hreads, ordered, hordering, htaken⟩ := h
  refine ⟨x.reading, .inr ⟨x.maxTasks, isLatest, ordered, hreads.maxTasks, hordering, ?_⟩⟩
  rw [hordering.resultOf_eq hstore fun r hr => (Table.limit_sublist _ _).subset (htaken ▸ hr), htaken]
  rfl

theorem limit_spec (x : Txn) (ordered : List WorkflowRow) :
    (Table.limit x.limit ordered).length ≤ ordered.length ∧
      (∀ m ∈ x.limit, (Table.limit x.limit ordered).length ≤ m) ∧
      ordered.take (Table.limit x.limit ordered).length = Table.limit x.limit ordered ∧
      (ordered.drop (Table.limit x.limit ordered).length = [] ∨ x.full (Table.limit x.limit ordered) = true) := by
  cases hlimit : x.limit with
  | none => simp [Table.limit]
  | some m =>
    refine ⟨by simp [Table.limit], by simp [Table.limit], by simp [Table.limit], ?_⟩
    rcases Nat.le_total m ordered.length with hle | hle
    · exact .inr (by simp [Txn.full, hlimit, Table.limit, hle])
    · exact .inl (by simp [Table.limit, hle])

section Steps

theorem Solo.ofOver {p : Phase} (hphase : s'.phase k = p) (hover : p.over = true) (hp : p.Solo calls t k) :
    Solo calls t k s' where
  phase := hphase ▸ hp
  still hopen := by
    rw [hphase, hover] at hopen
    cases hopen

theorem Solo.init (hidle : t.phase k = .idle) (hlocks : ∀ id, t.locks id = none) : Solo calls t k t where
  phase := by
    rw [hidle]
    trivial
  still _ := ⟨rfl, rfl, fun id hid => hid.1 (hlocks id)⟩

variable [DecidableEq κ]

theorem Solo.goto {p : Phase} (h : Solo calls t k s) (hopen : (s.phase k).over = false) (hp : p.Solo calls t k) :
    Solo calls t k (s.goto k p) where
  phase := by simpa [State.goto] using hp
  still _ := h.still hopen

theorem Solo.take (h : Solo calls t k s) (hphase : s.phase k = .scanning x isLatest (r :: rest) taken)
    (hfull : x.full taken = false) :
    Solo calls t k (s.take k r.workflowID (.scanning x isLatest rest (taken ++ [r]))) := by
  obtain ⟨hstore, hversions, hlocks⟩ := h.still (by rw [hphase]; rfl)
  obtain ⟨hreads, hordering, -⟩ : (Phase.scanning x isLatest (r :: rest) taken).Solo calls t k := hphase ▸ h.phase
  refine ⟨?_, fun _ => ⟨hstore, hversions, fun id => ?_⟩⟩
  · have hlt : ∀ m ∈ x.limit, (taken ++ [r]).length ≤ m := by
      intro m hm
      have hnot : ¬ m ≤ taken.length := by
        obtain hm : x.limit = some m := hm
        simpa [Txn.full, hm] using hfull
      simp only [List.length_append, List.length_singleton]
      omega
    simpa [State.take, State.goto, Phase.Solo] using And.intro hreads ⟨hordering, by simpa using hlt⟩
  · by_cases hid : id = r.workflowID
    · simp [State.LockedByOther, State.take, hid]
    · simpa [State.LockedByOther, State.take, hid] using hlocks id

/-- **One step** of the call. -/
theorem Solo.step (h : Solo calls t k s) (hstep : step calls s a = some s') (ha : a.call? = some k) :
    Solo calls t k s' := by
  have hsolo : ∀ {p : Phase}, s.phase k = p → p.Solo calls t k := fun hp => hp ▸ h.phase
  have hover : ∀ {p : Phase}, s.phase k = p → p.over = false → (s.phase k).over = false := fun hp ho => hp ▸ ho
  cases moves_of_step hstep with
  | stop j now hphase hmax =>
    obtain rfl : j = k := Option.some.inj ha
    obtain ⟨hstore, -, -⟩ := h.still (hover hphase rfl)
    rw [hstore] at hmax
    exact h.goto (hover hphase rfl) ⟨now, .inl ⟨hmax, rfl⟩⟩
  | count j now maxTasks hphase hmax =>
    obtain rfl : j = k := Option.some.inj ha
    obtain ⟨hstore, hversions, -⟩ := h.still (hover hphase rfl)
    exact h.goto (hover hphase rfl) ⟨hstore, hversions, hstore ▸ hmax⟩
  | version j latest x hphase hlatest =>
    obtain rfl : j = k := Option.some.inj ha
    obtain ⟨-, hversions, -⟩ := h.still (hover hphase rfl)
    have hreads : x.Reads (calls j) t := hsolo hphase
    have hsource : sourceVersions calls s j x = t.versions := by
      unfold sourceVersions
      split_ifs
      · exact hreads.versions
      · exact hversions
    exact h.goto (hover hphase rfl) ⟨hreads, latest, hsource ▸ hlatest, rfl⟩
  | select j ordered x isLatest hphase horder =>
    obtain rfl : j = k := Option.some.inj ha
    obtain ⟨hstore, -, -⟩ := h.still (hover hphase rfl)
    obtain ⟨hreads, hlatest⟩ : x.Reads (calls j) t ∧ _ := hsolo hphase
    have hsource : source calls s j x = t.store.table := by
      unfold source
      split_ifs
      · rw [hreads.snapshot]
      · rw [hstore]
    exact h.goto (hover hphase rfl) ⟨hreads, ⟨hlatest, hsource ▸ horder⟩, by simp⟩
  | skip j x isLatest r rest taken hphase hskip =>
    obtain rfl : j = k := Option.some.inj ha
    obtain ⟨hstore, -, hlocks⟩ := h.still (hover hphase rfl)
    obtain ⟨-, hordering, -⟩ : x.Reads (calls j) t ∧ _ ∧ _ := hsolo hphase
    obtain ⟨hfind, heligible⟩ := hordering.find? (List.mem_append_right taken List.mem_cons_self)
    have hfalse := (hskip.resolve_left (hlocks _)) r (hstore ▸ hfind)
    rw [heligible] at hfalse
    cases hfalse
  | lockSnapshot j x isLatest r rest taken hphase hfull =>
    obtain rfl : j = k := Option.some.inj ha
    exact h.take hphase hfull
  | lockCommitted j x isLatest r r' rest taken hphase hfull hfree hfind =>
    obtain rfl : j = k := Option.some.inj ha
    obtain ⟨hstore, -, -⟩ := h.still (hover hphase rfl)
    obtain ⟨-, hordering, -⟩ : x.Reads (calls j) t ∧ _ ∧ _ := hsolo hphase
    have hrow := (hordering.find? (List.mem_append_right taken List.mem_cons_self)).1
    rw [← hstore, hfind] at hrow
    cases hrow
    exact h.take hphase hfull
  | claim j now x isLatest rest taken hphase hend =>
    obtain rfl : j = k := Option.some.inj ha
    obtain ⟨hreads, hordering, hwithin⟩ : x.Reads (calls j) t ∧ _ ∧ _ := hsolo hphase
    exact h.goto (hover hphase rfl) ⟨hreads, _, hordering, taken_eq_limit hwithin hend⟩
  | nothing j x isLatest taken now hphase hresult =>
    obtain rfl : j = k := Option.some.inj ha
    have hfirst := firstRows_of_claimed (hsolo hphase) (h.still (hover hphase rfl)).1
    rw [hresult] at hfirst
    exact .ofOver (p := .returned []) (by simp [State.finish, State.goto]) rfl hfirst
  | commit a j p x isLatest taken now hphase hresult hact =>
    have hj : j = k := by
      rcases hact with ⟨rfl, -⟩ | ⟨rfl, -⟩ <;> exact Option.some.inj ha
    subst hj
    have hfirst := firstRows_of_claimed (hsolo hphase) (h.still (hover hphase rfl)).1
    refine .ofOver (p := p) (by simp [State.finish, State.goto]) ?_ ?_
    · rcases hact with ⟨-, rfl⟩ | ⟨-, rfl⟩ <;> rfl
    · rcases hact with ⟨-, rfl⟩ | ⟨-, rfl⟩
      · exact hfirst
      · trivial
  | fail a j hcall hcommitter =>
    obtain rfl : j = k := Option.some.inj (hcall.symm.trans ha)
    exact .ofOver (p := .failed) (by simp [State.finish, State.goto]) rfl trivial
  | environment | register | foreignLock | foreignUnlock => cases ha

/-- **What a call by itself returns** are the first rows. -/
theorem firstRows_of_exec {as : List (Action κ)} (hidle : t.phase k = .idle) (hlocks : ∀ id, t.locks id = none)
    (has : ∀ a ∈ as, a.call? = some k) (h : exec (system calls) t as = some s)
    (hreturned : s.phase k = .returned ids) : t.FirstRows calls k ids := by
  have hsolo : Solo calls t k s :=
    exec_invariant (fun a ha _ _ hstep hs => hs.step hstep (has a ha)) h (Solo.init hidle hlocks)
  have hphase := hsolo.phase
  rw [hreturned] at hphase
  exact hphase

/-! ### What it returns -/

theorem step_lock (h : Solo calls t k s) (hphase : s.phase k = .scanning x isLatest (r :: rest) taken)
    (hfull : x.full taken = false) :
    step calls s (.lock k) = some (s.take k r.workflowID (.scanning x isLatest rest (taken ++ [r]))) := by
  obtain ⟨hstore, -, hlocks⟩ := h.still (by rw [hphase]; rfl)
  obtain ⟨hreads, hordering, -⟩ : (Phase.scanning x isLatest (r :: rest) taken).Solo calls t k := hphase ▸ h.phase
  obtain ⟨hfind, heligible⟩ := hordering.find? (List.mem_append_right taken List.mem_cons_self)
  have hsnapshot : x.snapshot = s.store := hreads.snapshot.trans hstore.symm
  rw [← hstore] at hfind
  simp [step, hphase, hfull, lockStep, hlocks, hsnapshot, hfind, heligible]

theorem exec_locks (n : ℕ) : ∀ (s : State κ) (rest taken : List WorkflowRow), Solo calls t k s →
    s.phase k = .scanning x isLatest rest taken → n ≤ rest.length → (∀ m ∈ x.limit, taken.length + n ≤ m) →
    ∃ s', exec (system calls) s (List.replicate n (.lock k)) = some s' ∧ Solo calls t k s' ∧
      s'.phase k = .scanning x isLatest (rest.drop n) (taken ++ rest.take n) := by
  induction n with
  | zero => exact fun s rest taken h hphase _ _ => ⟨s, rfl, h, by simpa using hphase⟩
  | succ n ih =>
    intro s rest taken h hphase hn hlimit
    cases rest with
    | nil => simp at hn
    | cons r rest =>
      have hfull : x.full taken = false := by
        cases hm : x.limit with
        | none => simp [Txn.full, hm]
        | some m =>
          have := hlimit m hm
          simp [Txn.full, hm]
          omega
      have hstep := step_lock h hphase hfull
      obtain ⟨s', hs', hsolo, hphase'⟩ := ih (s.take k r.workflowID (.scanning x isLatest rest (taken ++ [r]))) rest
        (taken ++ [r]) (h.take hphase hfull) (by simp [State.take, State.goto]) (by simpa using hn) (by
          intro m hm
          have := hlimit m hm
          simp only [List.length_append, List.length_singleton]
          omega)
      exact ⟨s', (exec_cons hstep).trans hs', hsolo, by simpa using hphase'⟩

theorem exec_query {maxTasks : Option Int} (hidle : t.phase k = .idle) (hlocks : ∀ id, t.locks id = none)
    (hmax : (calls k).maxTasks now t.store.table = some maxTasks) (h : Ordering (calls k) t isLatest ordered) :
    ∃ as s x, (∀ a ∈ as, a.call? = some k) ∧ exec (system calls) t as = some s ∧ Solo calls t k s ∧
      x.maxTasks = maxTasks ∧ s.phase k = .scanning x isLatest ordered [] := by
  obtain ⟨⟨latest, hlatest, rfl⟩, horder⟩ := h
  obtain ⟨x, hx⟩ : ∃ x : Txn, x = ⟨now, t.store, t.versions, maxTasks⟩ := ⟨_, rfl⟩
  have hcount : step calls t (.count k now) = some (t.goto k (.counted x)) := by simp [step, hidle, hmax, hx]
  have hversion : step calls (t.goto k (.counted x)) (.version k latest) =
      some ((t.goto k (.counted x)).goto k (.versioned x ((calls k).isLatestVersion latest))) := by
    simp [step, State.goto, sourceVersions, hlatest, hx]
  have hselect : step calls ((t.goto k (.counted x)).goto k (.versioned x ((calls k).isLatestVersion latest)))
      (.select k ordered) = some (((t.goto k (.counted x)).goto k
        (.versioned x ((calls k).isLatestVersion latest))).goto k
          (.scanning x ((calls k).isLatestVersion latest) ordered [])) := by
    simp [step, State.goto, source, horder, hx]
  refine ⟨[.count k now, .version k latest, .select k ordered], _, x, by simp [Action.call?],
    (exec_cons hcount).trans ((exec_cons hversion).trans (exec_singleton hselect)), ?_, by rw [hx], by simp [State.goto]⟩
  exact (((Solo.init hidle hlocks).step hcount rfl).step hversion rfl).step hselect rfl

theorem step_commit (calls : κ → Call) (hphase : s.phase k = .claimed x isLatest taken now) :
    ∃ s', step calls s (.commit k) = some s' ∧ s'.phase k = .returned (resultOf calls s k taken) := by
  by_cases hresult : resultOf calls s k taken = []
  · exact ⟨s.finish k (.returned []), by simp [step, hphase, hresult],
      by simp [State.finish, State.goto, hresult]⟩
  · exact ⟨{ s.finish k (.returned (resultOf calls s k taken)) with store := published calls s k taken now },
      by simp [step, hphase, hresult], by simp [State.finish, State.goto]⟩

/-- **A call by itself returns** the first rows. -/
theorem exists_exec_of_firstRows (hidle : t.phase k = .idle) (hlocks : ∀ id, t.locks id = none)
    (h : t.FirstRows calls k ids) :
    ∃ as s, (∀ a ∈ as, a.call? = some k) ∧ exec (system calls) t as = some s ∧ s.phase k = .returned ids := by
  obtain ⟨now, ⟨hmax, rfl⟩ | ⟨maxTasks, isLatest, ordered, hmax, hordering, rfl⟩⟩ := h
  · have hstep : step calls t (.count k now) = some (t.goto k (.returned [])) := by simp [step, hidle, hmax]
    exact ⟨[.count k now], _, by simp [Action.call?], exec_singleton hstep, by simp [State.goto]⟩
  · obtain ⟨as, s₁, x, has, hquery, hsolo₁, rfl, hphase₁⟩ := exec_query hidle hlocks hmax hordering
    obtain ⟨hlength, hwithin, htake, hend⟩ := limit_spec x ordered
    obtain ⟨s₂, hscan, hsolo₂, hphase₂⟩ := exec_locks _ s₁ ordered [] hsolo₁ hphase₁ hlength (by simpa using hwithin)
    rw [List.nil_append, htake] at hphase₂
    have hclaim : step calls s₂ (.claim k 0) =
        some (s₂.goto k (.claimed x isLatest (Table.limit x.limit ordered) 0)) := by
      simp only [step, hphase₂, if_pos hend]
    have hphase₃ : (s₂.goto k (.claimed x isLatest (Table.limit x.limit ordered) 0)).phase k =
        .claimed x isLatest (Table.limit x.limit ordered) 0 := Function.update_self ..
    obtain ⟨s₃, hcommit, hreturned⟩ := step_commit calls hphase₃
    have htail : exec (system calls) s₂ [.claim k 0, .commit k] = some s₃ :=
      (exec_cons hclaim).trans (exec_singleton hcommit)
    have hstore : (s₂.goto k (.claimed x isLatest (Table.limit x.limit ordered) 0)).store = t.store :=
      (hsolo₂.still (by rw [hphase₂]; rfl)).1
    refine ⟨as ++ (List.replicate (Table.limit x.limit ordered).length (.lock k) ++ [.claim k 0, .commit k]), s₃, ?_,
      (exec_append hquery).trans ((exec_append hscan).trans htail), ?_⟩
    · intro a ha
      rcases List.mem_append.1 ha with ha | ha
      · exact has a ha
      · rcases List.mem_append.1 ha with ha | ha
        · rw [List.eq_of_mem_replicate ha]
          rfl
        · rcases List.mem_cons.1 ha with rfl | ha
          · rfl
          · rw [List.mem_singleton.1 ha]
            rfl
    · rw [hreturned, hordering.resultOf_eq hstore fun r hr => (Table.limit_sublist _ _).subset hr]
      rfl

end Steps

/-! ### There are first rows -/

theorem exists_latest (l : List VersionRow) (h : l ≠ []) :
    ∃ v ∈ l, ∀ u ∈ l, u.versionTimestamp ≤ v.versionTimestamp := by
  induction l with
  | nil => exact (h rfl).elim
  | cons v l ih =>
    by_cases hl : l = []
    · exact ⟨v, List.mem_cons_self, by simp [hl]⟩
    · obtain ⟨w, hw, hmax⟩ := ih hl
      rcases Int.le_total v.versionTimestamp w.versionTimestamp with hle | hle
      · refine ⟨w, List.mem_cons_of_mem _ hw, fun u hu => ?_⟩
        rcases List.mem_cons.1 hu with rfl | hu
        · exact hle
        · exact hmax u hu
      · refine ⟨v, List.mem_cons_self, fun u hu => ?_⟩
        rcases List.mem_cons.1 hu with rfl | hu
        · exact Int.le_refl _
        · exact Int.le_trans (hmax u hu) hle

theorem Call.exists_readsLatest (c : Call) (versions : List VersionRow) : ∃ latest, c.ReadsLatest versions latest := by
  by_cases h : c.registered versions = []
  · exact ⟨none, h⟩
  · obtain ⟨v, hv, hmax⟩ := exists_latest _ h
    exact ⟨some v, hv, hmax⟩

theorem exists_firstRows (calls : κ → Call) (t : State κ) (k : κ) : ∃ ids, t.FirstRows calls k ids := by
  cases hmax : (calls k).maxTasks 0 t.store.table with
  | none => exact ⟨[], 0, .inl ⟨hmax, rfl⟩⟩
  | some maxTasks =>
    obtain ⟨latest, hlatest⟩ := (calls k).exists_readsLatest t.versions
    exact ⟨_, 0, .inr ⟨maxTasks, _, _, hmax, ⟨⟨latest, hlatest, rfl⟩, orderBy_mergeSort _⟩, rfl⟩⟩

end Dbos.Dispatch
