import PrefixCalc.Atom.Basic

/-!
# PrefixCalc.Sexp.Basic

S-expressions: an atom, or a list of S-expressions between parentheses. The first item of a list
is its head and says what is to be done, the others are the arguments. A program is a sequence of
S-expressions.
-/

namespace PrefixCalc

inductive Sexp where
  | atom (leaf : Atom)
  | list (items : List Sexp)
  deriving Repr, Inhabited

abbrev Program := List Sexp

namespace Sexp

/-- Induction over S-expressions: a list has a property if its having it follows from that of
all its items. -/
@[induction_eliminator]
theorem induct {motive : Sexp → Prop} (atom : ∀ leaf, motive (.atom leaf))
    (list : ∀ items, (∀ x ∈ items, motive x) → motive (.list items)) (x : Sexp) : motive x :=
  Sexp.rec (motive_1 := motive) (motive_2 := fun items => ∀ x ∈ items, motive x)
    atom list
    (fun _ h => nomatch h)
    (fun x items hx hitems y hy => by
      rcases List.mem_cons.mp hy with rfl | hy
      · exact hx
      · exact hitems y hy)
    x

def head? : Sexp → Option Sexp
  | .atom _ => none
  | .list items => items.head?

def arguments : Sexp → List Sexp
  | .atom _ => []
  | .list items => items.tail

mutual

/-- How many lists stand inside each other at the deepest place. -/
def depth : Sexp → Nat
  | .atom _ => 0
  | .list items => depthAll items + 1

def depthAll : List Sexp → Nat
  | [] => 0
  | x :: rest => max (depth x) (depthAll rest)

end

mutual

def decEq : (x y : Sexp) → Decidable (x = y)
  | .atom a, .atom b =>
    if h : a = b then .isTrue (congrArg _ h) else .isFalse fun e => h (Sexp.atom.inj e)
  | .list xs, .list ys =>
    match decEqAll xs ys with
    | .isTrue h => .isTrue (congrArg _ h)
    | .isFalse h => .isFalse fun e => h (Sexp.list.inj e)
  | .atom _, .list _ => .isFalse nofun
  | .list _, .atom _ => .isFalse nofun

def decEqAll : (xs ys : List Sexp) → Decidable (xs = ys)
  | [], [] => .isTrue rfl
  | x :: xs, y :: ys =>
    match decEq x y with
    | .isFalse h => .isFalse fun e => h (List.cons.inj e).1
    | .isTrue h =>
      match decEqAll xs ys with
      | .isFalse h' => .isFalse fun e => h' (List.cons.inj e).2
      | .isTrue h' => .isTrue (h ▸ h' ▸ rfl)
  | [], _ :: _ => .isFalse nofun
  | _ :: _, [] => .isFalse nofun

end

instance : DecidableEq Sexp := decEq

theorem depthAll_le_iff {items : List Sexp} {n : Nat} :
    depthAll items ≤ n ↔ ∀ x ∈ items, x.depth ≤ n := by
  induction items with
  | nil => simp [depthAll]
  | cons x rest ih => simp only [depthAll, Nat.max_le, ih, List.forall_mem_cons]

theorem depth_list_cons (head : Sexp) (args : List Sexp) :
    (list (head :: args)).depth = max head.depth (depthAll args) + 1 := by
  rw [Sexp.depth, depthAll]

/-- A list is within a limit if its items are within the limit that one level leaves them. -/
theorem depth_list_le_iff {items : List Sexp} {limit depth : Nat} :
    (list items).depth ≤ limit - depth ↔ depth < limit ∧ depthAll items ≤ limit - (depth + 1) := by
  rw [Sexp.depth]
  omega

end Sexp

/-- The depth of the deepest expression of a program. -/
def Program.depth (program : Program) : Nat :=
  Sexp.depthAll program

end PrefixCalc
