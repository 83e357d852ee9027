import DbosTransact.Patch.Versions

/-!
# Code that fits its checkpoints

`Fits` follows the code along its checkpoints: each has the name of the operation that finds it, and behind
the last one there is at most a deadline. A history of version 0 fits version 1 if it is clean at the patch
point (`CleanPoint`), that is, unless an execution has died in a wait there.
-/

namespace Dbos.Patch

open Replay Code

variable {α : Type} {p : String} {J K L : Journal α} {n m : ℕ}

/-! ### Checkpoints -/

theorem checkOperationExecution_none {name : String} (h : J n = none) :
    checkOperationExecution J n name = .ok none := by
  simp only [checkOperationExecution, h]

theorem checkOperationExecution_some {name : String} {row : Row α} (h : J n = some row) :
    checkOperationExecution J n name =
      if name ≠ row.name then .error ⟨n, name, row.name⟩ else .ok (some row.answer) := by
  simp only [checkOperationExecution, h]

theorem insert_self (J : Journal α) (n : ℕ) (row : Row α) : J.insert n row n = some row :=
  Function.update_self ..

theorem insert_of_ne {row : Row α} (h : m ≠ n) : J.insert n row m = J m :=
  Function.update_of_ne h ..

/-- Every checkpoint of `J` is one of `K`. -/
def Journal.Le (J K : Journal α) : Prop := ∀ m row, J m = some row → K m = some row

theorem Journal.Le.trans (h : J.Le K) (h' : K.Le L) : J.Le L := fun m row hm => h' m row (h m row hm)

theorem le_insert {row : Row α} (h : J n = none) : J.Le (J.insert n row) := by
  intro m row' hm
  rw [insert_of_ne]
  · exact hm
  · rintro rfl
    rw [h] at hm
    cases hm

theorem width_pos (o : Op) : 0 < o.width := by
  cases o <;> simp [Op.width]

theorem width_le_two (o : Op) : o.width ≤ 2 := by
  cases o <;> simp [Op.width]

theorem width_of_isWait {o : Op} (h : o.isWait = true) : o.width = 2 := by
  cases o <;> first | rfl | cases h

/-- Whether `Patch` returns true. -/
def patchedAt (p : String) (J : Journal α) (n : ℕ) : Bool := (J n).all (·.name = prefixedPatchName p)

theorem patchedAt_congr (h : J n = K n) : patchedAt p J n = patchedAt p K n := by
  simp only [patchedAt, h]

theorem patchedAt_of_none (h : J n = none) : patchedAt p J n = true := by
  simp only [patchedAt, h, Option.all_none]

theorem patchedAt_of_ne {row : Row α} (h : J n = some row) (hname : row.name ≠ prefixedPatchName p) :
    patchedAt p J n = false := by
  simp [patchedAt, h, hname]

theorem deprecatePatch_congr (h : J n = K n) : deprecatePatch p J n = deprecatePatch p K n := by
  unfold deprecatePatch doesPatchExists
  rw [h]

theorem le_deprecatePatch (p : String) (J : Journal α) (n : ℕ) : n ≤ deprecatePatch p J n := by
  unfold deprecatePatch
  split_ifs <;> omega

/-! ### Code and checkpoints -/

/-- The code replays over the checkpoints: each has the name of the operation that finds it, and where
they end there may only be a deadline. If they are a `whole` history, nothing comes after the code. -/
def Fits (whole : Bool) (p : String) (J : Journal α) : Script α → ℕ → Prop
  | .done, n => whole = true → ∀ m, n ≤ m → J m = none
  | .ask o k, n =>
    match J n with
    | some row => o.name = row.name ∧ Fits whole p J (k row.answer) (n + o.width)
    | none =>
      (o.isWait = true → ∀ row, J (n + 1) = some row → sleepName = row.name) ∧
        ∀ m, n + o.width ≤ m → J m = none
  | .patch k, n => Fits whole p J (k (patchedAt p J n)) (if patchedAt p J n then n + 1 else n)
  | .deprecatePatch c, n => Fits whole p J c (deprecatePatch p J n)

/-- The operations that a replay calls, with their step IDs, as far as the checkpoints go. -/
def walk (p : String) (J : Journal α) : Script α → ℕ → List (Op × ℕ)
  | .done, _ => []
  | .ask o k, n =>
    (o, n) ::
      match J n with
      | some row => walk p J (k row.answer) (n + o.width)
      | none => []
  | .patch k, n => walk p J (k (patchedAt p J n)) (if patchedAt p J n then n + 1 else n)
  | .deprecatePatch c, n => walk p J c (deprecatePatch p J n)

/-- The code does not begin with an operation of the marker's name. -/
def Script.Unmarked (p : String) : Script α → Prop
  | .done => True
  | .ask o _ => o.name ≠ prefixedPatchName p
  | .patch _ => False
  | .deprecatePatch _ => False

/-- No operation takes the place of the marker of a deprecated patch. -/
def Script.Clear (p : String) : Script α → Prop
  | .done => True
  | .ask _ k => ∀ a, (k a).Clear p
  | .patch k => ∀ b, (k b).Clear p
  | .deprecatePatch c => c.Unmarked p ∧ c.Clear p

section Fits

variable {whole : Bool} {c : Script α} {o : Op} {k : α → Script α} {row : Row α}

theorem fits_ask_some (h : J n = some row) :
    Fits whole p J (.ask o k) n ↔ o.name = row.name ∧ Fits whole p J (k row.answer) (n + o.width) := by
  simp only [Fits, h]

theorem fits_ask_none (h : J n = none) :
    Fits whole p J (.ask o k) n ↔ (o.isWait = true → ∀ row, J (n + 1) = some row → sleepName = row.name) ∧
      ∀ m, n + o.width ≤ m → J m = none := by
  simp only [Fits, h]

theorem walk_ask_some (h : J n = some row) :
    walk p J (.ask o k) n = (o, n) :: walk p J (k row.answer) (n + o.width) := by
  simp only [walk, h]

theorem walk_ask_none (h : J n = none) : walk p J (.ask o k) n = [(o, n)] := by
  simp only [walk, h]

theorem current_isPrefix_walk (J : Journal α) (c : Script α) (n : ℕ) : c.current n <+: walk p J c n := by
  cases c with
  | ask o k =>
    simp only [walk, Script.current]
    exact ⟨_, rfl⟩
  | done | patch k | deprecatePatch c => exact List.nil_prefix

/-- Code looks at the checkpoints from the next ID on. -/
theorem fits_congr (h : ∀ m, n ≤ m → J m = K m) : Fits whole p J c n ↔ Fits whole p K c n := by
  induction c generalizing n with
  | done =>
    simp only [Fits]
    exact imp_congr_right fun _ => forall_congr' fun m => imp_congr_right fun hm => by rw [h m hm]
  | ask o k ih =>
    have hn := h n le_rfl
    cases hrow : J n with
    | some row =>
      rw [fits_ask_some hrow, fits_ask_some (hn.symm.trans hrow), ih row.answer fun m hm => h m (by omega)]
    | none =>
      rw [fits_ask_none hrow, fits_ask_none (hn.symm.trans hrow), h (n + 1) (by omega)]
      refine and_congr_right fun _ => forall_congr' fun m => imp_congr_right fun hm => ?_
      rw [h m (by omega)]
  | patch k ih =>
    simp only [Fits, patchedAt_congr (p := p) (h n le_rfl)]
    exact ih _ fun m hm => h m (by split_ifs at hm <;> omega)
  | deprecatePatch c ih =>
    simp only [Fits, deprecatePatch_congr (p := p) (h n le_rfl)]
    exact ih fun m hm => h m ((le_deprecatePatch p K n).trans hm)

theorem walk_congr (h : ∀ m, n ≤ m → J m = K m) : walk p J c n = walk p K c n := by
  induction c generalizing n with
  | done => rfl
  | ask o k ih =>
    have hn := h n le_rfl
    cases hrow : J n with
    | some row =>
      rw [walk_ask_some hrow, walk_ask_some (hn.symm.trans hrow), ih row.answer fun m hm => h m (by omega)]
    | none => rw [walk_ask_none hrow, walk_ask_none (hn.symm.trans hrow)]
  | patch k ih =>
    simp only [walk, patchedAt_congr (p := p) (h n le_rfl)]
    exact ih _ fun m hm => h m (by split_ifs at hm <;> omega)
  | deprecatePatch c ih =>
    simp only [walk, deprecatePatch_congr (p := p) (h n le_rfl)]
    exact ih fun m hm => h m ((le_deprecatePatch p K n).trans hm)

theorem fits_of_none (h : ∀ m, n ≤ m → J m = none) : Fits whole p J c n := by
  induction c generalizing n with
  | done => exact fun _ => h
  | ask o k ih =>
    refine (fits_ask_none (h n le_rfl)).2 ⟨fun _ row hrow => ?_, fun m hm => h m (by omega)⟩
    rw [h (n + 1) (by omega)] at hrow
    cases hrow
  | patch k ih => exact ih _ fun m hm => h m (by split_ifs at hm <;> omega)
  | deprecatePatch c ih => exact ih fun m hm => h m ((le_deprecatePatch p J n).trans hm)

theorem fits_of_whole (h : Fits true p J c n) : Fits whole p J c n := by
  induction c generalizing n with
  | done => exact fun _ => h rfl
  | ask o k ih =>
    cases hrow : J n with
    | some row =>
      rw [fits_ask_some hrow] at h ⊢
      exact ⟨h.1, ih row.answer h.2⟩
    | none =>
      rw [fits_ask_none hrow] at h ⊢
      exact h
  | patch k ih => exact ih _ h
  | deprecatePatch c ih => exact ih h

end Fits

/-! ### The versions -/

variable {c : Patched α}

theorem clear_ofProgram (q : Program Op α) : (Script.ofProgram q).Clear p := by
  induction q with
  | done => trivial
  | ask o k ih => exact ih

theorem clear_v0 (c : Patched α) : c.v0.Clear p := by
  induction c with
  | done => trivial
  | ask o k ih => exact ih
  | point old new => exact clear_ofProgram old

theorem clear_v1 (c : Patched α) : c.v1.Clear p := by
  induction c with
  | done => trivial
  | ask o k ih => exact ih
  | point old new =>
    intro b
    cases b with
    | false => exact clear_ofProgram old
    | true => exact clear_ofProgram new

/-- The code begins with an operation of this name, or is at its end. -/
def BeginsWith (name : String) : Program Op α → Prop
  | .done => True
  | .ask o _ => o.name = name

/-- The history at the patch point, if it has come there: a checkpoint there is not named as the marker,
and if there is none, no deadline is left behind the point for the new block to run into. -/
def CleanPoint (p : String) (J : Journal α) : Patched α → ℕ → Prop
  | .done, _ => True
  | .ask o k, n =>
    match J n with
    | some row => CleanPoint p J (k row.answer) (n + o.width)
    | none => True
  | .point _ new, n =>
    match J n with
    | some row => row.name ≠ prefixedPatchName p
    | none => ∀ row, J (n + 1) = some row → BeginsWith row.name new

def Patched.NewUnmarked (p : String) : Patched α → Prop
  | .done => True
  | .ask _ k => ∀ a, (k a).NewUnmarked p
  | .point _ new => (Script.ofProgram new).Unmarked p

theorem clear_v2 (h : c.NewUnmarked p) : c.v2.Clear p := by
  induction c with
  | done => trivial
  | ask o k ih => exact fun a => ih a (h a)
  | point old new => exact ⟨h, clear_ofProgram new⟩

theorem fits_ofProgram_next {new : Program Op α} (hbegins : ∀ row, J (n + 1) = some row → BeginsWith row.name new)
    (h : ∀ m, n + 2 ≤ m → J m = none) : Fits false p J (.ofProgram new) (n + 1) := by
  cases new with
  | done => exact fun h => nomatch h
  | ask o k =>
    have := width_pos o
    cases hrow : J (n + 1) with
    | some row =>
      refine (fits_ask_some hrow).2 ⟨hbegins row hrow, fits_of_none fun m hm => h m (by omega)⟩
    | none =>
      refine (fits_ask_none hrow).2 ⟨fun _ row hrow' => ?_, fun m hm => h m (by omega)⟩
      rw [h (n + 1 + 1) (by omega)] at hrow'
      cases hrow'

/-- Behind the last checkpoint there is at most a deadline. -/
theorem none_of_fits {q : Program Op α} (h : Fits true p J (.ofProgram q) n) (hrow : J n = none) :
    ∀ m, n + 2 ≤ m → J m = none := by
  intro m hm
  cases q with
  | done => exact h rfl m (by omega)
  | ask o k =>
    have := width_le_two o
    exact ((fits_ask_none hrow).1 h).2 m (by omega)

theorem fits_v1 (h : Fits true p J c.v0 n) (hclean : CleanPoint p J c n) : Fits false p J c.v1 n := by
  induction c generalizing n with
  | done => exact fun h => nomatch h
  | ask o k ih =>
    rw [Patched.v0] at h
    rw [Patched.v1]
    cases hrow : J n with
    | some row =>
      rw [fits_ask_some hrow] at h ⊢
      simp only [CleanPoint, hrow] at hclean
      exact ⟨h.1, ih row.answer h.2 hclean⟩
    | none =>
      rw [fits_ask_none hrow] at h ⊢
      exact h
  | point old new =>
    rw [Patched.v0] at h
    rw [Patched.v1, Fits]
    cases hrow : J n with
    | some row =>
      simp only [CleanPoint, hrow] at hclean
      rw [patchedAt_of_ne hrow hclean]
      exact fits_of_whole h
    | none =>
      simp only [CleanPoint, hrow] at hclean
      rw [patchedAt_of_none hrow]
      exact fits_ofProgram_next hclean (none_of_fits h hrow)

end Dbos.Patch
