import DbosTransact.Patch.Fits

/-!
# Executions of code that fits

An execution of code that fits gets no `UnexpectedStep`, calls the operations of `walk` under their step
IDs, and leaves checkpoints that the code fits again, unless an operation of the new code has the name of
the marker where a patch is deprecated (`Script.Clear`).
-/

namespace Dbos.Patch

open Replay Code

variable {α : Type} [Inhabited α]

/-! ### What a statement does -/

def marker (p : String) : Row α := ⟨prefixedPatchName p, default⟩

inductive Moves (p : String) (J : Journal α) : Script α → ℕ → Turn α → Prop
  | returned {n : ℕ} : Moves p J .done n (.stop .returned)
  | unexpected {o : Op} {k : α → Script α} {n : ℕ} {row : Row α} : J n = some row → o.name ≠ row.name →
      Moves p J (.ask o k) n (.stop (.unexpectedStep ⟨n, o.name, row.name⟩))
  | unexpectedDeadline {o : Op} {k : α → Script α} {n : ℕ} {row : Row α} : J n = none → o.isWait = true →
      J (n + 1) = some row → sleepName ≠ row.name →
      Moves p J (.ask o k) n (.stop (.unexpectedStep ⟨n + 1, sleepName, row.name⟩))
  | replayed {o : Op} {k : α → Script α} {n : ℕ} {row : Row α} : J n = some row → o.name = row.name →
      Moves p J (.ask o k) n (.goto J (k row.answer) (n + o.width) (some (o, n)) none)
  | answered {o : Op} {k : α → Script α} {n : ℕ} {a : α} : J n = none →
      Moves p J (.ask o k) n (.goto (J.insert n ⟨o.name, a⟩) (k a) (n + o.width) (some (o, n)) none)
  | answerLost {o : Op} {k : α → Script α} {n : ℕ} {a : α} : J n = none →
      Moves p J (.ask o k) n (.goto (J.insert n ⟨o.name, a⟩) (.ask o k) n none none)
  | deadline {o : Op} {k : α → Script α} {n : ℕ} {a : α} : J n = none → o.isWait = true → J (n + 1) = none →
      Moves p J (.ask o k) n (.goto (J.insert (n + 1) ⟨sleepName, a⟩) (.ask o k) n none none)
  | idle {c : Script α} {n : ℕ} : Moves p J c n (.goto J c n none none)
  | patched {k : Bool → Script α} {n : ℕ} {row : Row α} : J n = some row →
      Moves p J (.patch k) n
        (.goto J (k (patchedAt p J n)) (if patchedAt p J n then n + 1 else n) none (some (n, patchedAt p J n)))
  | marked {k : Bool → Script α} {n : ℕ} : J n = none →
      Moves p J (.patch k) n (.goto (J.insert n (marker p)) (k true) (n + 1) none (some (n, true)))
  | markLost {k : Bool → Script α} {n : ℕ} : J n = none →
      Moves p J (.patch k) n (.goto (J.insert n (marker p)) (.patch k) n none none)
  | deprecated {c : Script α} {n : ℕ} :
      Moves p J (.deprecatePatch c) n (.goto J c (deprecatePatch p J n) none none)

variable {p : String} {i : Input α} {is : List (Input α)} {J : Journal α} {c : Script α} {n : ℕ}

theorem patchedAt_of_marker (h : J n = some (marker p)) : patchedAt p J n = true := by
  simp [patchedAt, h, marker]

theorem patchedAt_insert (J : Journal α) (n : ℕ) : patchedAt p (J.insert n (marker p)) n = true :=
  patchedAt_of_marker (insert_self J n _)

theorem patch_of_some {row : Row α} (hrow : J n = some row) :
    patch p J n = (patchedAt p J n, J, if patchedAt p J n then n + 1 else n) := by
  simp [patch, sysdbPatch, doesPatchExists, patchedAt, hrow]

theorem patch_of_none (hrow : J n = none) : patch p J n = (true, J.insert n (marker p), n + 1) := by
  simp [patch, sysdbPatch, doesPatchExists, marker, hrow]

theorem moves_of_perform {o : Op} {k : α → Script α} (hrow : J n = none) :
    Moves p J (.ask o k) n (perform i J o k n) := by
  cases i with
  | answer a => exact .answered hrow
  | answerLost a => exact .answerLost hrow
  | deadline a =>
    cases hwait : o.isWait with
    | false =>
      simp only [perform, hwait]
      exact .idle
    | true =>
      cases hnext : J (n + 1) with
      | none =>
        simp only [perform, hwait, checkOperationExecution_none hnext]
        exact .deadline hrow hwait hnext
      | some row =>
        by_cases hname : sleepName = row.name
        · simp only [perform, hwait, checkOperationExecution_some hnext, hname, ne_eq, not_true, if_false]
          exact .idle
        · simp only [perform, hwait, checkOperationExecution_some hnext, hname, ne_eq, not_false_eq_true, if_true]
          exact .unexpectedDeadline hrow hwait hnext hname

theorem moves_of_turn : Moves p J c n (turn p i J n c) := by
  cases c with
  | done => exact .returned
  | ask o k =>
    cases hrow : J n with
    | none =>
      simp only [turn, checkOperationExecution_none hrow]
      exact moves_of_perform hrow
    | some row =>
      by_cases hname : o.name = row.name
      · simp only [turn, checkOperationExecution_some hrow, hname, ne_eq, not_true, if_false]
        exact .replayed hrow hname
      · simp only [turn, checkOperationExecution_some hrow, hname, ne_eq, not_false_eq_true, if_true]
        exact .unexpected hrow hname
  | patch k =>
    cases hrow : J n with
    | some row =>
      have hpatch := patch_of_some (p := p) hrow
      cases i with
      | answerLost a =>
        simp only [turn, hpatch]
        exact .idle
      | answer a | deadline a =>
        simp only [turn, hpatch]
        exact .patched hrow
    | none =>
      have hpatch := patch_of_none (p := p) hrow
      cases i with
      | answerLost a =>
        simp only [turn, hpatch]
        exact .markLost hrow
      | answer a | deadline a =>
        simp only [turn, hpatch]
        exact .marked hrow
  | deprecatePatch k => exact .deprecated

/-- A statement keeps the checkpoints, and writes none below the next ID. -/
theorem Moves.keeps {J' : Journal α} {c' : Script α} {n' : ℕ} {call : Option (Op × ℕ)} {patched : Option (ℕ × Bool)}
    (h : Moves p J c n (.goto J' c' n' call patched)) : J.Le J' ∧ n ≤ n' ∧ ∀ m < n, J' m = J m := by
  have hkeep : ∀ {m' : ℕ} {row : Row α}, J m' = none → n ≤ m' → n ≤ n' →
      J.Le (J.insert m' row) ∧ n ≤ n' ∧ ∀ m < n, J.insert m' row m = J m :=
    fun hrow hle hle' => ⟨le_insert hrow, hle', fun m hm => insert_of_ne (by omega)⟩
  cases h with
  | replayed => exact ⟨fun _ _ h => h, by omega, fun _ _ => rfl⟩
  | answered hrow => exact hkeep hrow le_rfl (by omega)
  | answerLost hrow => exact hkeep hrow le_rfl le_rfl
  | deadline _ _ hrow => exact hkeep hrow (by omega) le_rfl
  | idle => exact ⟨fun _ _ h => h, le_rfl, fun _ _ => rfl⟩
  | patched =>
    refine ⟨fun _ _ h => h, ?_, fun _ _ => rfl⟩
    split_ifs <;> omega
  | marked hrow => exact hkeep hrow le_rfl (by omega)
  | markLost hrow => exact hkeep hrow le_rfl le_rfl
  | deprecated =>
    refine ⟨fun _ _ h => h, ?_, fun _ _ => rfl⟩
    unfold deprecatePatch
    split_ifs <;> omega

theorem run_cons {motive : Result α → Prop}
    (stop : ∀ outcome, Moves p J c n (.stop outcome) → motive ⟨J, c.current n, [], outcome⟩)
    (goto : ∀ J' c' n' call patched, Moves p J c n (.goto J' c' n' call patched) →
      motive { run p is J' c' n' with
        calls := call.toList ++ (run p is J' c' n').calls,
        patches := patched.toList ++ (run p is J' c' n').patches }) :
    motive (run p (i :: is) J c n) := by
  have hmoves := moves_of_turn (p := p) (i := i) (J := J) (c := c) (n := n)
  unfold run
  generalize turn p i J n c = t at hmoves
  cases t with
  | stop outcome => exact stop outcome hmoves
  | goto J' c' n' call patched => exact goto J' c' n' call patched hmoves

theorem run_keeps (is : List (Input α)) (J : Journal α) (c : Script α) (n : ℕ) :
    J.Le (run p is J c n).journal ∧ ∀ m < n, (run p is J c n).journal m = J m := by
  induction is generalizing J c n with
  | nil => exact ⟨fun _ _ h => h, fun _ _ => rfl⟩
  | cons i is ih =>
    refine run_cons (motive := fun r => J.Le r.journal ∧ ∀ m < n, r.journal m = J m)
      (fun outcome _ => ⟨fun _ _ h => h, fun _ _ => rfl⟩) fun J' c' n' call patched h => ?_
    obtain ⟨hle, hn, hbelow⟩ := h.keeps
    obtain ⟨hle', hbelow'⟩ := ih J' c' n'
    exact ⟨fun m row hm => hle' m row (hle m row hm), fun m hm => (hbelow' m (by omega)).trans (hbelow m hm)⟩

/-! ### An execution of code that fits -/

variable {whole : Bool}

/-- What an execution of code that fits comes to: the code still fits, and the operations called are those
of a replay, which goes on from where it went before. -/
structure Replayed (whole : Bool) (p : String) (J : Journal α) (c : Script α) (n : ℕ) (r : Result α) : Prop where
  fits : Fits whole p r.journal c n
  safe : ∀ err, r.outcome ≠ .unexpectedStep err
  calls : r.calls <+: walk p r.journal c n
  grows : walk p J c n <+: walk p r.journal c n

theorem run_done (is : List (Input α)) (J : Journal α) (n : ℕ) : (run p is J .done n).journal = J := by
  cases is <;> rfl

theorem deprecatePatch_run (hc : c.Unmarked p) (hrow : J n = none)
    (h : Fits whole p (run p is J c n).journal c n) : deprecatePatch p (run p is J c n).journal n = n := by
  refine if_neg fun hmarked => ?_
  obtain ⟨row, hrow', hname⟩ := Option.map_eq_some_iff.1 hmarked
  cases c with
  | done =>
    rw [run_done, hrow] at hrow'
    cases hrow'
  | ask o k => exact hc (((fits_ask_some hrow').1 h).1.trans hname)
  | patch k => exact hc
  | deprecatePatch c => exact hc

theorem Moves.fits {J' : Journal α} {c' : Script α} {n' : ℕ} {call : Option (Op × ℕ)} {patched : Option (ℕ × Bool)}
    (hmoves : Moves p J c n (.goto J' c' n' call patched)) (hc : c.Clear p) (h : Fits whole p J c n) :
    c'.Clear p ∧ Fits whole p J' c' n' := by
  cases hmoves with
  | @replayed o k _ row hrow hname => exact ⟨hc row.answer, ((fits_ask_some hrow).1 h).2⟩
  | @answered o k _ a hrow =>
    refine ⟨hc a, fits_of_none fun m hm => ?_⟩
    have := width_pos o
    rw [insert_of_ne (by omega)]
    exact ((fits_ask_none hrow).1 h).2 m hm
  | @answerLost o k _ a hrow =>
    refine ⟨hc, (fits_ask_some (insert_self J n _)).2 ⟨rfl, fits_of_none fun m hm => ?_⟩⟩
    have := width_pos o
    rw [insert_of_ne (by omega)]
    exact ((fits_ask_none hrow).1 h).2 m hm
  | @deadline o k _ a hrow hwait hnext =>
    have hrow' : J.insert (n + 1) ⟨sleepName, a⟩ n = none := (insert_of_ne (by omega)).trans hrow
    refine ⟨hc, (fits_ask_none hrow').2 ⟨fun _ row hdeadline => ?_, fun m hm => ?_⟩⟩
    · rw [insert_self] at hdeadline
      exact congrArg Row.name (Option.some.inj hdeadline)
    · have := width_of_isWait hwait
      rw [insert_of_ne (by omega)]
      exact ((fits_ask_none hrow).1 h).2 m hm
  | idle => exact ⟨hc, h⟩
  | patched hrow => exact ⟨hc _, h⟩
  | @marked k _ hrow =>
    rw [Fits, patchedAt_of_none hrow] at h
    refine ⟨hc true, (fits_congr fun m hm => ?_).1 h⟩
    exact (insert_of_ne (by omega)).symm
  | @markLost k _ hrow =>
    rw [Fits, patchedAt_of_none hrow] at h
    refine ⟨hc, ?_⟩
    rw [Fits, patchedAt_insert]
    refine (fits_congr fun m hm => ?_).1 h
    exact (insert_of_ne (by simp at hm; omega)).symm
  | deprecated => exact ⟨hc.2, h⟩

theorem Moves.replayed_of {J' : Journal α} {c' : Script α} {n' : ℕ} {call : Option (Op × ℕ)}
    {patched : Option (ℕ × Bool)} (hmoves : Moves p J c n (.goto J' c' n' call patched)) (hc : c.Clear p)
    (hr : Replayed whole p J' c' n' (run p is J' c' n')) :
    Replayed whole p J c n { run p is J' c' n' with
      calls := call.toList ++ (run p is J' c' n').calls,
      patches := patched.toList ++ (run p is J' c' n').patches } := by
  obtain ⟨hle, -⟩ := run_keeps (p := p) is J' c' n'
  cases hmoves with
  | @replayed o k _ row hrow hname =>
    have hrow' := hle n row hrow
    refine ⟨(fits_ask_some hrow').2 ⟨hname, hr.fits⟩, hr.safe, ?_, ?_⟩
    · rw [walk_ask_some hrow']
      exact List.cons_prefix_cons.2 ⟨rfl, hr.calls⟩
    · rw [walk_ask_some hrow, walk_ask_some hrow']
      exact List.cons_prefix_cons.2 ⟨rfl, hr.grows⟩
  | @answered o k _ a hrow =>
    have hrow' := hle n _ (insert_self J n ⟨o.name, a⟩)
    refine ⟨(fits_ask_some hrow').2 ⟨rfl, hr.fits⟩, hr.safe, ?_, ?_⟩
    · rw [walk_ask_some hrow']
      exact List.cons_prefix_cons.2 ⟨rfl, hr.calls⟩
    · rw [walk_ask_none hrow]
      exact current_isPrefix_walk _ (.ask o k) n
  | @answerLost o k _ a hrow | @deadline o k _ a hrow hwait hnext =>
    refine ⟨hr.fits, hr.safe, hr.calls, ?_⟩
    rw [walk_ask_none hrow]
    exact current_isPrefix_walk _ (.ask o k) n
  | idle => exact hr
  | @patched k _ row hrow =>
    have heq := patchedAt_congr (p := p) ((hle n row hrow).trans hrow.symm)
    refine ⟨?_, hr.safe, ?_, ?_⟩
    · rw [Fits, heq]
      exact hr.fits
    · rw [walk, heq]
      exact hr.calls
    · rw [walk, walk, heq]
      exact hr.grows
  | @marked k _ hrow =>
    have heq := patchedAt_of_marker (p := p) (hle n _ (insert_self J n (marker p)))
    have hwalk : walk p J (k true) (n + 1) = walk p (J.insert n (marker p)) (k true) (n + 1) :=
      walk_congr fun m hm => (insert_of_ne (by omega)).symm
    refine ⟨?_, hr.safe, ?_, ?_⟩
    · rw [Fits, heq]
      exact hr.fits
    · rw [walk, heq]
      exact hr.calls
    · rw [walk, walk, heq, patchedAt_of_none hrow]
      exact hwalk ▸ hr.grows
  | @markLost k _ hrow =>
    have hwalk : walk p J (k true) (n + 1) = walk p (J.insert n (marker p)) (k true) (n + 1) :=
      walk_congr fun m hm => (insert_of_ne (by omega)).symm
    refine ⟨hr.fits, hr.safe, hr.calls, ?_⟩
    have hgrows := hr.grows
    rw [walk, patchedAt_insert] at hgrows
    rw [walk, patchedAt_of_none hrow]
    exact hwalk ▸ hgrows
  | deprecated =>
    have heq : deprecatePatch p (run p is J c' (deprecatePatch p J n)).journal n = deprecatePatch p J n := by
      cases hrow : J n with
      | some row => exact deprecatePatch_congr ((hle n row hrow).trans hrow.symm)
      | none =>
        have hnext : deprecatePatch p J n = n := if_neg (by simp [doesPatchExists, hrow])
        rw [hnext]
        exact deprecatePatch_run hc.1 hrow (hnext ▸ hr.fits)
    refine ⟨?_, hr.safe, ?_, ?_⟩
    · rw [Fits, heq]
      exact hr.fits
    · rw [walk, heq]
      exact hr.calls
    · rw [walk, walk, heq]
      exact hr.grows

/-- **Code that fits replays.** -/
theorem replayed_run (is : List (Input α)) (hc : c.Clear p) (h : Fits whole p J c n) :
    Replayed whole p J c n (run p is J c n) := by
  induction is generalizing J c n with
  | nil => exact ⟨h, by simp [run], current_isPrefix_walk J c n, List.prefix_rfl⟩
  | cons i is ih =>
    refine run_cons (motive := Replayed whole p J c n) (fun outcome hmoves => ?_)
      fun J' c' n' call patched hmoves => ?_
    · cases hmoves with
      | returned => exact ⟨h, by simp, List.nil_prefix, List.prefix_rfl⟩
      | unexpected hrow hname => exact absurd ((fits_ask_some hrow).1 h).1 hname
      | unexpectedDeadline hrow hwait hrow' hname => exact absurd (((fits_ask_none hrow).1 h).1 hwait _ hrow') hname
    · obtain ⟨hc', h'⟩ := hmoves.fits hc h
      exact hmoves.replayed_of hc (ih hc' h')

end Dbos.Patch
