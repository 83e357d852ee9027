import Mathlib.Tactic.Common

/-!
# Wrapped and joined errors

An error is a tree: a node carries what is known about it and may wrap a cause, and two errors may
be joined into one. The questions asked of an error look through the whole tree.
-/

/-- An error whose nodes carry an `ι`. -/
inductive ErrorTree (ι : Type*)
  | leaf (a : ι)
  | wrap (a : ι) (cause : ErrorTree ι)
  | join (l r : ErrorTree ι)
  deriving DecidableEq, Repr

namespace ErrorTree

variable {ι β : Type*}

/-- Some node of the tree satisfies `p`. -/
def any (p : ι → Bool) : ErrorTree ι → Bool
  | leaf a => p a
  | wrap a cause => p a || any p cause
  | join l r => any p l || any p r

/-- What `f` says of the first node on which it is defined. -/
def first? (f : ι → Option β) : ErrorTree ι → Option β
  | leaf a => f a
  | wrap a cause => (f a).or (first? f cause)
  | join l r => (first? f l).or (first? f r)

/-- The message; `render` is given a node and the text of its cause. -/
def text (render : ι → Option String → String) : ErrorTree ι → String
  | leaf a => render a none
  | wrap a cause => render a (some (text render cause))
  | join l r => text render l ++ "\n" ++ text render r

def map {κ : Type*} (g : ι → κ) : ErrorTree ι → ErrorTree κ
  | leaf a => leaf (g a)
  | wrap a cause => wrap (g a) (map g cause)
  | join l r => join (map g l) (map g r)

theorem any_map {κ : Type*} (g : ι → κ) (p : κ → Bool) (e : ErrorTree ι) :
    any p (map g e) = any (fun a => p (g a)) e := by
  induction e with
  | leaf a => rfl
  | wrap a cause ih => simp only [map, any, ih]
  | join l r ihl ihr => simp only [map, any, ihl, ihr]

theorem first?_map_eq_none {κ : Type*} {g : ι → κ} {f : κ → Option β} (h : ∀ a, f (g a) = none)
    (e : ErrorTree ι) : first? f (map g e) = none := by
  induction e with
  | leaf a => exact h a
  | wrap a cause ih => simp only [map, first?, h, ih, Option.or_none]
  | join l r ihl ihr => simp only [map, first?, ihl, ihr, Option.or_none]

@[simp] theorem any_wrap (p : ι → Bool) (a : ι) (e : ErrorTree ι) :
    any p (wrap a e) = (p a || any p e) := rfl

end ErrorTree
