import DbosTransact.Patch.Replays

/-!
# When patching keeps histories replayable

A history of version 0 is left by any number of executions, each of which may die anywhere. Version 1
replays it unless an execution has died in a wait at the patch point: then `Patch` returns true, and the new
block runs into the deadline. What version 1 leaves after `Patch` has returned true has a marker, so an
execution of version 2 is one of version 1 (`exists_v1_run`).
-/

namespace Dbos.Patch

open Replay Code

variable {α : Type} {p : String} {J K L : Journal α} {c : Patched α} {n m : ℕ}

/-! ### The patch point -/

/-- The step ID of the patch point, if the checkpoints lead there. -/
def pointID (J : Journal α) : Patched α → ℕ → Option ℕ
  | .done, _ => none
  | .ask o k, n => (J n).bind fun row => pointID J (k row.answer) (n + o.width)
  | .point _ _, n => some n

theorem pointID_mono (hle : K.Le L) (h : pointID K c n = some m) : pointID L c n = some m := by
  induction c generalizing n with
  | done => cases h
  | ask o k ih =>
    obtain ⟨row, hrow, hpoint⟩ := Option.bind_eq_some_iff.1 h
    rw [pointID, hle n row hrow]
    exact ih row.answer hpoint
  | point old new => exact h

/-- Of the checkpoint at the patch point, if it is not from the history `J`, it is the marker; if it is,
it is not named as the marker. -/
def Agrees (p : String) (J K : Journal α) : Patched α → ℕ → Prop
  | .done, _ => True
  | .ask o k, n => ∀ row, K n = some row → Agrees p J K (k row.answer) (n + o.width)
  | .point _ _, n =>
    (J n = none → ∀ row, K n = some row → row.name = prefixedPatchName p) ∧
      ∀ row, J n = some row → row.name ≠ prefixedPatchName p

theorem agrees_of_cleanPoint (h : CleanPoint p J c n) : Agrees p J J c n := by
  induction c generalizing n with
  | done => trivial
  | ask o k ih =>
    intro row hrow
    simp only [CleanPoint, hrow] at h
    exact ih row.answer h
  | point old new =>
    refine ⟨fun hrow row hrow' => ?_, fun row hrow => ?_⟩
    · rw [hrow] at hrow'
      cases hrow'
    · simpa only [CleanPoint, hrow] using h

theorem agrees_of_none (hle : J.Le K) (h : ∀ m, n ≤ m → K m = none) : Agrees p J K c n := by
  have hJ : ∀ m, n ≤ m → J m = none := by
    intro m hm
    refine Option.eq_none_iff_forall_ne_some.2 fun row hrow => ?_
    have := hle m row hrow
    rw [h m hm] at this
    cases this
  cases c with
  | done => trivial
  | ask o k =>
    intro row hrow
    rw [h n le_rfl] at hrow
    cases hrow
  | point old new =>
    refine ⟨fun _ row hrow => ?_, fun row hrow => ?_⟩
    · rw [h n le_rfl] at hrow
      cases hrow
    · rw [hJ n le_rfl] at hrow
      cases hrow

theorem Agrees.point {old new : Program Op α} {row : Row α} (h : Agrees p J K (.point old new) n)
    (hrow : L n = some row) (hK : K n = some row ∨ row.name = prefixedPatchName p) :
    Agrees p J L (.point old new) n := by
  refine ⟨fun hnone row' hrow' => ?_, h.2⟩
  obtain rfl := Option.some.inj (hrow.symm.trans hrow')
  exact hK.elim (h.1 hnone row) id

/-- What `Patch` has returned in an execution that leaves the checkpoints `L`, given the history `J` before
the patch. -/
structure Answers (p : String) (J : Journal α) (c : Patched α) (n : ℕ) (L : Journal α) (patches : List (ℕ × Bool)) :
    Prop where
  agrees : Agrees p J L c n
  patches : ∀ x ∈ patches, (x.2 = false ↔ J x.1 ≠ none) ∧ pointID L c n = some x.1 ∧
    ∃ row, L x.1 = some row ∧ (x.2 = true ↔ row.name = prefixedPatchName p)

theorem Answers.ask {o : Op} {k : α → Patched α} {patches : List (ℕ × Bool)} {row : Row α} (hrow : L n = some row)
    (h : Answers p J (k row.answer) (n + o.width) L patches) : Answers p J (.ask o k) n L patches where
  agrees row' hrow' := by
    obtain rfl := Option.some.inj (hrow.symm.trans hrow')
    exact h.agrees
  patches x hx := by
    obtain ⟨hfalse, hpoint, hvalue⟩ := h.patches x hx
    refine ⟨hfalse, ?_, hvalue⟩
    rw [pointID, hrow]
    exact hpoint

theorem Answers.point {old new : Program Op α} {row : Row α} {b : Bool} (hrow : L n = some row)
    (hb : b = true ↔ row.name = prefixedPatchName p) (hle : J.Le L) (h : Agrees p J L (.point old new) n) :
    Answers p J (.point old new) n L [(n, b)] where
  agrees := h
  patches x hx := by
    obtain rfl := List.mem_singleton.1 hx
    refine ⟨?_, rfl, row, hrow, hb⟩
    rw [← Bool.not_eq_true, hb]
    constructor
    · exact fun hname hnone => hname (h.1 hnone row hrow)
    · intro hsome
      obtain ⟨row', hrow'⟩ := Option.ne_none_iff_exists'.1 hsome
      obtain rfl := Option.some.inj ((hle n row' hrow').symm.trans hrow)
      exact h.2 row' hrow'

/-- The checkpoints that version 1 leaves after the history `J`. -/
structure AfterPatch (p : String) (J : Journal α) (c : Patched α) (K : Journal α) : Prop where
  le : J.Le K
  fits : Fits false p K c.v1 0
  agrees : Agrees p J K c 0

theorem afterPatch_self (h : Fits true p J c.v0 0) (hclean : CleanPoint p J c 0) : AfterPatch p J c J :=
  ⟨fun _ _ h => h, fits_v1 h hclean, agrees_of_cleanPoint hclean⟩

variable [Inhabited α] {is : List (Input α)}

/-! ### The histories of a version -/

theorem left_induction {P : Journal α → Prop} {s : Script α} (h : P J)
    (hrun : ∀ K is, P K → P (run p is K s 0).journal) (runs : List (List (Input α))) : P (left p s J runs) := by
  induction runs generalizing J with
  | nil => exact h
  | cons is runs ih => exact ih (hrun J is h)

theorem le_left (s : Script α) (runs : List (List (Input α))) : J.Le (left p s J runs) :=
  left_induction (P := J.Le) (fun _ _ h => h) (fun K is h => h.trans (run_keeps is K s 0).1) runs

theorem fits_left {whole : Bool} {s : Script α} (hs : s.Clear p) (h : Fits whole p J s 0)
    (runs : List (List (Input α))) : Fits whole p (left p s J runs) s 0 :=
  left_induction (P := fun J => Fits whole p J s 0) h (fun _ _ h => (replayed_run _ hs h).fits) runs

theorem walk_left {s : Script α} (hs : s.Clear p) (h : Fits false p J s 0) (runs : List (List (Input α))) :
    walk p J s 0 <+: walk p (left p s J runs) s 0 := by
  refine (left_induction (P := fun K => Fits false p K s 0 ∧ walk p J s 0 <+: walk p K s 0)
    ⟨h, List.prefix_rfl⟩ ?_ runs).2
  intro K is ⟨hfits, hwalk⟩
  have hr := replayed_run is hs hfits
  exact ⟨hr.fits, hwalk.trans hr.grows⟩

/-! ### What `Patch` returns -/

theorem patches_ofProgram (q : Program Op α) (K : Journal α) (n : ℕ) (is : List (Input α)) :
    (run p is K (.ofProgram q) n).patches = [] := by
  induction is generalizing q K n with
  | nil => rfl
  | cons i is ih =>
    refine run_cons (motive := fun r => r.patches = []) (fun _ _ => rfl) fun J' c' n' call patched hmoves => ?_
    cases q with
    | done =>
      cases hmoves with
      | idle => exact ih .done K n
    | ask o k =>
      rw [Script.ofProgram] at hmoves
      cases hmoves with
      | replayed => exact ih ..
      | answered => exact ih ..
      | answerLost => exact ih (.ask o k) ..
      | deadline => exact ih (.ask o k) ..
      | idle => exact ih (.ask o k) ..

theorem answers_run (hle : J.Le K) (hfits : Fits false p K c.v1 n) (h : Agrees p J K c n) :
    Answers p J c n (run p is K c.v1 n).journal (run p is K c.v1 n).patches := by
  induction is generalizing K c n with
  | nil => exact ⟨h, fun x hx => nomatch hx⟩
  | cons i is ih =>
    refine run_cons (motive := fun r => Answers p J c n r.journal r.patches) (fun _ _ => ⟨h, fun x hx => nomatch hx⟩)
      fun K' c' n' call patched hmoves => ?_
    have hle' : J.Le K' := hle.trans hmoves.keeps.1
    obtain ⟨-, hfits'⟩ := hmoves.fits (clear_v1 c) hfits
    obtain ⟨hrun, -⟩ := run_keeps (p := p) is K' c' n'
    cases c with
    | done =>
      cases hmoves with
      | idle => exact ih hle hfits h
    | ask o k =>
      rw [Patched.v1] at hmoves hfits
      have hnone : ∀ {a : α}, K n = none → ∀ m, n + o.width ≤ m → K.insert n ⟨o.name, a⟩ m = none := by
        intro a hrow m hm
        have := width_pos o
        rw [insert_of_ne (by omega)]
        exact ((fits_ask_none hrow).1 hfits).2 m hm
      cases hmoves with
      | @replayed _ _ _ row hrow hname => exact .ask (hrun n row hrow) (ih hle hfits' (h row hrow))
      | @answered _ _ _ a hrow =>
        exact .ask (hrun n _ (insert_self K n ⟨o.name, a⟩)) (ih hle' hfits' (agrees_of_none hle' (hnone hrow)))
      | @answerLost _ _ _ a hrow =>
        refine ih (c := .ask o k) hle' hfits' fun row hrow' => ?_
        obtain rfl := Option.some.inj ((insert_self K n _).symm.trans hrow')
        exact agrees_of_none hle' (hnone hrow)
      | @deadline _ _ _ a hrow hwait hnext =>
        refine ih (c := .ask o k) hle' hfits' fun row hrow' => ?_
        rw [insert_of_ne (by omega), hrow] at hrow'
        cases hrow'
      | idle => exact ih (c := .ask o k) hle hfits' h
    | point old new =>
      rw [Patched.v1] at hmoves
      have hpatches : ∀ b n, (run p is K' (if b = true then .ofProgram new else .ofProgram old) n).patches = [] := by
        intro b n
        cases b with
        | false => exact patches_ofProgram old K' n is
        | true => exact patches_ofProgram new K' n is
      cases hmoves with
      | @patched _ _ row hrow =>
        have hrow' := hrun n row hrow
        rw [hpatches]
        exact .point hrow' (by simp [patchedAt, hrow]) (hle.trans hrun) (h.point hrow' (.inl hrow))
      | marked hrow =>
        have hrow' := hrun n _ (insert_self K n (marker p))
        rw [hpatches true]
        exact .point hrow' (iff_of_true rfl rfl) (hle'.trans hrun) (h.point hrow' (.inr rfl))
      | markLost hrow =>
        exact ih (c := .point old new) hle' hfits' (h.point (insert_self K n (marker p)) (.inr rfl))
      | idle => exact ih (c := .point old new) hle hfits' h

/-! ### Version 2 after version 1 -/

section Runs

variable {o : Op} {k : α → Script α} {row : Row α} {i : Input α}

theorem run_replayed (hrow : K n = some row) (hname : o.name = row.name) (is : List (Input α)) :
    run p (i :: is) K (.ask o k) n =
      { run p is K (k row.answer) (n + o.width) with
        calls := (o, n) :: (run p is K (k row.answer) (n + o.width)).calls } := by
  rw [run, turn, checkOperationExecution_some hrow, if_neg (not_not.2 hname)]
  rfl

theorem run_unexpected (hrow : K n = some row) (hname : o.name ≠ row.name) (is : List (Input α)) :
    run p (i :: is) K (.ask o k) n = ⟨K, [(o, n)], [], .unexpectedStep ⟨n, o.name, row.name⟩⟩ := by
  rw [run, turn, checkOperationExecution_some hrow, if_pos hname]
  rfl

theorem run_answered (hrow : K n = none) (a : α) (is : List (Input α)) :
    run p (.answer a :: is) K (.ask o k) n =
      { run p is (K.insert n ⟨o.name, a⟩) (k a) (n + o.width) with
        calls := (o, n) :: (run p is (K.insert n ⟨o.name, a⟩) (k a) (n + o.width)).calls } := by
  rw [run, turn, checkOperationExecution_none hrow]
  rfl

theorem run_deprecatePatch (s : Script α) (is : List (Input α)) :
    run p (i :: is) K (.deprecatePatch s) n = run p is K s (deprecatePatch p K n) := by
  rw [run, turn]
  rfl

theorem run_patched {k : Bool → Script α} (hrow : K n = some row) (a : α) (is : List (Input α)) :
    run p (.answer a :: is) K (.patch k) n =
      { run p is K (k (patchedAt p K n)) (if patchedAt p K n then n + 1 else n) with
        patches := (n, patchedAt p K n) ::
          (run p is K (k (patchedAt p K n)) (if patchedAt p K n then n + 1 else n)).patches } := by
  rw [run, turn, patch_of_some hrow]
  rfl

theorem run_marked {k : Bool → Script α} (hrow : K n = none) (a : α) (is : List (Input α)) :
    run p (.answer a :: is) K (.patch k) n =
      { run p is (K.insert n (marker p)) (k true) (n + 1) with
        patches := (n, true) :: (run p is (K.insert n (marker p)) (k true) (n + 1)).patches } := by
  rw [run, turn, patch_of_none hrow]
  rfl

end Runs

/-- Where there is a marker, an execution of version 2 does what one of version 1 does. -/
theorem exists_v1_run {row : Row α} (hpoint : pointID K c n = some m) (hrow : K m = some row)
    (hname : row.name = prefixedPatchName p) (is : List (Input α)) :
    ∃ is', (run p is' K c.v1 n).journal = (run p is K c.v2 n).journal ∧
      (run p is' K c.v1 n).calls = (run p is K c.v2 n).calls ∧
      (run p is' K c.v1 n).outcome = (run p is K c.v2 n).outcome := by
  induction is generalizing c n with
  | nil =>
    refine ⟨[], rfl, ?_, rfl⟩
    cases c <;> rfl
  | cons i is ih =>
    cases c with
    | done => cases hpoint
    | ask o k =>
      obtain ⟨row', hrow', hpoint'⟩ := Option.bind_eq_some_iff.1 hpoint
      obtain ⟨is', hjournal, hcalls, houtcome⟩ := ih hpoint'
      refine ⟨i :: is', ?_⟩
      rw [Patched.v1, Patched.v2]
      by_cases hname' : o.name = row'.name
      · rw [run_replayed hrow' hname', run_replayed hrow' hname']
        exact ⟨hjournal, congrArg ((o, n) :: ·) hcalls, houtcome⟩
      · rw [run_unexpected hrow' hname', run_unexpected hrow' hname']
        exact ⟨rfl, rfl, rfl⟩
    | point old new =>
      obtain rfl := Option.some.inj hpoint
      have hpatched : patchedAt p K n = true := by simp [patchedAt, hrow, hname]
      have hnext : deprecatePatch p K n = n + 1 := if_pos (by simp [doesPatchExists, hrow, hname])
      refine ⟨.answer default :: is, ?_⟩
      rw [Patched.v1, Patched.v2, run_patched hrow, run_deprecatePatch, hnext, hpatched]
      exact ⟨rfl, rfl, rfl⟩

theorem exists_v1_left {row : Row α} (hpoint : pointID K c 0 = some m) (hrow : K m = some row)
    (hname : row.name = prefixedPatchName p) (runs : List (List (Input α))) :
    ∃ runs', left p c.v1 K runs' = left p c.v2 K runs := by
  induction runs generalizing K with
  | nil => exact ⟨[], rfl⟩
  | cons is runs ih =>
    obtain ⟨is', hjournal, -, -⟩ := exists_v1_run hpoint hrow hname is
    obtain ⟨hle, -⟩ := run_keeps (p := p) is K c.v2 0
    obtain ⟨runs', hruns⟩ := ih (pointID_mono hle hpoint) (hle m row hrow)
    refine ⟨is' :: runs', ?_⟩
    rw [left, List.foldl_cons, hjournal]
    exact hruns

/-! ### The law -/

/-- The execution gets no `UnexpectedStep`. -/
def Safe (r : Result α) : Prop := ∀ err, r.outcome ≠ .unexpectedStep err

/-- The operations have the same step IDs in both executions, as far as both come. -/
def SameIDs (r r' : Result α) : Prop := r.calls <+: r'.calls ∨ r'.calls <+: r.calls

/-- Executions of version 1 over the history `J` of version 0 get no `UnexpectedStep`, and `Patch` returns
false exactly where `J` has a checkpoint at the patch point. -/
def OldReplays (p : String) (c : Patched α) (J : Journal α) : Prop :=
  ∀ runs is, Safe (run p is (left p c.v1 J runs) c.v1 0) ∧
    ∀ x ∈ (run p is (left p c.v1 J runs) c.v1 0).patches, x.2 = false ↔ J x.1 ≠ none

/-- After an execution of version 1 in which `Patch` has returned true, it returns true in every execution
of version 1, and every execution of version 2 replays it under the same step IDs. -/
def NewReplays (p : String) (c : Patched α) (J : Journal α) : Prop :=
  ∀ runs is m, (m, true) ∈ (run p is (left p c.v1 J runs) c.v1 0).patches →
    ∀ runs' is',
      (∀ x ∈ (run p is' (left p c.v1 (run p is (left p c.v1 J runs) c.v1 0).journal runs') c.v1 0).patches,
        x = (m, true)) ∧
      Safe (run p is' (left p c.v2 (run p is (left p c.v1 J runs) c.v1 0).journal runs') c.v2 0) ∧
      SameIDs (run p is (left p c.v1 J runs) c.v1 0)
        (run p is' (left p c.v2 (run p is (left p c.v1 J runs) c.v1 0).journal runs') c.v2 0)

def FreshReplays (p : String) (c : Patched α) : Prop :=
  ∀ runs is runs' is',
    Safe (run p is' (left p c.v2 (run p is (left p c.v2 .empty runs) c.v2 0).journal runs') c.v2 0) ∧
    SameIDs (run p is (left p c.v2 .empty runs) c.v2 0)
      (run p is' (left p c.v2 (run p is (left p c.v2 .empty runs) c.v2 0).journal runs') c.v2 0)

theorem AfterPatch.run (h : AfterPatch p J c K) (is : List (Input α)) :
    AfterPatch p J c (run p is K c.v1 0).journal where
  le := h.le.trans (run_keeps is K c.v1 0).1
  fits := (replayed_run _ (clear_v1 c) h.fits).fits
  agrees := (answers_run h.le h.fits h.agrees).agrees

theorem AfterPatch.left (h : AfterPatch p J c K) (runs : List (List (Input α))) :
    AfterPatch p J c (left p c.v1 K runs) :=
  left_induction (P := AfterPatch p J c) h (fun _ is h => h.run is) runs

theorem oldReplays (h : AfterPatch p J c J) : OldReplays p c J := by
  intro runs is
  have hleft := h.left runs
  refine ⟨(replayed_run _ (clear_v1 c) hleft.fits).safe, fun x hx => ?_⟩
  exact ((answers_run hleft.le hleft.fits hleft.agrees).patches x hx).1

theorem newReplays (h : AfterPatch p J c J) : NewReplays p c J := by
  intro runs is m hm runs' is'
  have hleft := h.left runs
  have hrun := hleft.run is
  obtain ⟨-, hpoint, row, hrow, htrue⟩ := (answers_run hleft.le hleft.fits hleft.agrees).patches _ hm
  have hname : row.name = prefixedPatchName p := htrue.1 rfl
  have hcalls := (replayed_run is (clear_v1 c) hleft.fits).calls
  generalize run p is (left p c.v1 J runs) c.v1 0 = r at *
  refine ⟨fun x hx => ?_, ?_⟩
  · have hagain := hrun.left runs'
    obtain ⟨-, hpoint', row', hrow', hname'⟩ := (answers_run hagain.le hagain.fits hagain.agrees).patches x hx
    have hle := (le_left (p := p) c.v1 runs').trans (run_keeps (p := p) is' (left p c.v1 r.journal runs') c.v1 0).1
    obtain rfl := Option.some.inj ((pointID_mono hle hpoint).symm.trans hpoint')
    obtain rfl := Option.some.inj ((hle _ row hrow).symm.trans hrow')
    exact Prod.ext rfl (hname'.2 hname)
  · -- version 2 does what version 1 would do
    obtain ⟨runs₁, hruns⟩ := exists_v1_left hpoint hrow hname runs'
    rw [← hruns]
    have hagain := hrun.left runs₁
    have hle := le_left (p := p) (J := r.journal) c.v1 runs₁
    obtain ⟨is₁, hjournal₁, hcalls₁, houtcome₁⟩ := exists_v1_run (pointID_mono hle hpoint) (hle m row hrow) hname is'
    have hr₁ := replayed_run is₁ (clear_v1 c) hagain.fits
    refine ⟨fun err herr => hr₁.safe err (houtcome₁.trans herr), ?_⟩
    unfold SameIDs
    rw [← hcalls₁]
    refine List.prefix_or_prefix_of_prefix (hcalls.trans ?_) hr₁.calls
    exact (walk_left (clear_v1 c) hrun.fits runs₁).trans hr₁.grows

theorem freshReplays (h : c.NewUnmarked p) : FreshReplays p c := by
  intro runs is runs' is'
  have hc := clear_v2 h
  have hfits : Fits false p (left p c.v2 .empty runs) c.v2 0 := fits_left hc (fits_of_none fun _ _ => rfl) runs
  have hr := replayed_run is hc hfits
  have hfits' := fits_left hc hr.fits runs'
  have hr' := replayed_run is' hc hfits'
  refine ⟨hr'.safe, List.prefix_or_prefix_of_prefix (hr.calls.trans ?_) hr'.calls⟩
  exact (walk_left hc hr.fits runs').trans hr'.grows

/-! The condition is needed: where it fails, an execution or two show it. -/

theorem cleanPoint_of_safe (hfits : Fits true p J c.v0 n)
    (h : ∀ is, Safe (run p is J c.v1 n) ∧ ∀ x ∈ (run p is J c.v1 n).patches, x.2 = false ↔ J x.1 ≠ none) :
    CleanPoint p J c n := by
  induction c generalizing n with
  | done => trivial
  | ask o k ih =>
    cases hrow : J n with
    | none => simp only [CleanPoint, hrow]
    | some row =>
      simp only [CleanPoint, hrow]
      obtain ⟨hname, hrest⟩ := (fits_ask_some hrow).1 hfits
      refine ih row.answer hrest fun is => ?_
      have hrun := h (.answer default :: is)
      rw [Patched.v1, run_replayed hrow hname] at hrun
      exact hrun
  | point old new =>
    cases hrow : J n with
    | some row =>
      simp only [CleanPoint, hrow]
      intro hname
      have hpatched : patchedAt p J n = true := by simp [patchedAt, hrow, hname]
      have hrun := (h [.answer default]).2 (n, true)
      rw [Patched.v1, run_patched hrow, hpatched] at hrun
      exact absurd ((hrun List.mem_cons_self).2 (by simp [hrow])) (by simp)
    | none =>
      simp only [CleanPoint, hrow]
      intro row hnext
      cases new with
      | done => trivial
      | ask o k =>
        by_contra hname
        have hrun := (h [.answer default, .answer default]).1
        have hnext' : J.insert n (marker p) (n + 1) = some row := (insert_of_ne (by omega)).trans hnext
        rw [Patched.v1, run_marked hrow] at hrun
        exact hrun _ (congrArg Result.outcome (run_unexpected hnext' hname []))

theorem newUnmarked_of_sameIDs (hnone : ∀ m, n ≤ m → J m = none)
    (h : ∀ is is', SameIDs (run p is J c.v2 n) (run p is' (run p is J c.v2 n).journal c.v2 n)) :
    c.NewUnmarked p := by
  induction c generalizing J n with
  | done => trivial
  | ask o k ih =>
    intro a
    have hrow := hnone n le_rfl
    have := width_pos o
    refine ih a (J := J.insert n ⟨o.name, a⟩) (n := n + o.width)
      (fun m hm => (insert_of_ne (by omega)).trans (hnone m (by omega))) fun is is' => ?_
    have hrun := h (.answer a :: is) (.answer a :: is')
    rw [Patched.v2, run_answered hrow] at hrun
    have hkept := (run_keeps (p := p) is (J.insert n ⟨o.name, a⟩) (k a).v2 (n + o.width)).1 n _
      (insert_self J n ⟨o.name, a⟩)
    rw [run_replayed hkept rfl] at hrun
    exact hrun.imp (fun h => (List.cons_prefix_cons.1 h).2) fun h => (List.cons_prefix_cons.1 h).2
  | point old new =>
    cases new with
    | done => trivial
    | ask o k =>
      intro hname
      have hrow := hnone n le_rfl
      have hnext : deprecatePatch p J n = n := if_neg (by simp [doesPatchExists, hrow])
      have hrun := h [.answer default, .answer default] [.answer default]
      rw [Patched.v2, run_deprecatePatch, hnext, Script.ofProgram, run_answered hrow, run_deprecatePatch] at hrun
      have hnext' : deprecatePatch p (J.insert n ⟨o.name, default⟩) n = n + 1 :=
        if_pos (by simp [doesPatchExists, insert_self, hname])
      -- the first operation has been called under two step IDs
      have hne : (o, n) ≠ (o, n + 1) := by simp
      rcases hrun with hprefix | hprefix
      · exact hne ((List.cons_prefix_cons.1 hprefix).1.trans (congrArg (Prod.mk o) hnext'))
      · exact hne ((List.cons_prefix_cons.1 hprefix).1.symm.trans (congrArg (Prod.mk o) hnext'))

/-- **When patching keeps histories replayable.** For every history of version 0, versions 1 and 2 replay
as they should exactly if the history is clean at the patch point and no new block begins with an
operation that is named as the marker. -/
theorem patched_code_replays_iff (p : String) (c : Patched α) (runs : List (List (Input α))) :
    OldReplays p c (left p c.v0 .empty runs) ∧ NewReplays p c (left p c.v0 .empty runs) ∧ FreshReplays p c ↔
      CleanPoint p (left p c.v0 .empty runs) c 0 ∧ c.NewUnmarked p := by
  have hfits : Fits true p (left p c.v0 .empty runs) c.v0 0 :=
    fits_left (clear_v0 c) (fits_of_none fun _ _ => rfl) runs
  constructor
  · rintro ⟨hold, -, hfresh⟩
    refine ⟨cleanPoint_of_safe hfits (hold []), newUnmarked_of_sameIDs (J := .empty) (n := 0) (fun _ _ => rfl) ?_⟩
    exact fun is is' => (hfresh [] is [] is').2
  · rintro ⟨hclean, hnew⟩
    have hafter := afterPatch_self hfits hclean
    exact ⟨oldReplays hafter, newReplays hafter, freshReplays hnew⟩

section Example

def approval : Patched Unit :=
  .point (.ask (.recv "approval" 60000) fun _ => .done) (.ask (.step "charge") fun _ => .done)

/-- Version 0 dies while it waits. Then `Patch` returns true, and the charge runs into the deadline. -/
theorem charge_meets_deadline :
    (run "fee" [.answer (), .answer ()] (left "fee" approval.v0 .empty [[.deadline ()]]) approval.v1 0).patches =
        [(0, true)] ∧
      (run "fee" [.answer (), .answer ()] (left "fee" approval.v0 .empty [[.deadline ()]]) approval.v1 0).outcome =
        .unexpectedStep ⟨1, "charge", "DBOS.sleep"⟩ := by
  decide +kernel

/-- Version 0 dies after it has received the approval, or before it waits: then every version replays. -/
theorem approval_replays :
    (OldReplays "fee" approval (left "fee" approval.v0 .empty [[.deadline (), .answer ()]]) ∧
      NewReplays "fee" approval (left "fee" approval.v0 .empty [[.deadline (), .answer ()]]) ∧
      FreshReplays "fee" approval) ∧
    OldReplays "fee" approval (left "fee" approval.v0 .empty [[]]) := by
  have hclean : CleanPoint "fee" (left "fee" approval.v0 .empty [[.deadline (), .answer ()]]) approval 0 :=
    show "DBOS.recv" ≠ prefixedPatchName "fee" by decide
  have hnew : approval.NewUnmarked "fee" := show "charge" ≠ prefixedPatchName "fee" by decide
  have hempty : CleanPoint "fee" (left "fee" approval.v0 .empty [[]]) approval 0 := nofun
  exact ⟨(patched_code_replays_iff "fee" approval _).2 ⟨hclean, hnew⟩,
    ((patched_code_replays_iff "fee" approval _).2 ⟨hempty, hnew⟩).1⟩

end Example

end Dbos.Patch
