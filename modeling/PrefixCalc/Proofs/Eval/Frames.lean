import PrefixCalc.Proofs.Eval.Values

/-!
# PrefixCalc.Proofs.Eval.Frames

Evaluation of an S-expression that stands inside of others, as one of their arguments.

* `Frame.eval_fill_congr`: what stands around it depends on its result only, at the depth where it
  stands.
* `Program.eval_fill_value`: so its value may take its place.
-/

namespace PrefixCalc

variable {limit depth : Nat}

theorem Sexp.evalAll_congr {x y : Sexp} (h : eval limit depth x = eval limit depth y)
    (before behind : List Sexp) :
    evalAll limit depth (before ++ x :: behind) = evalAll limit depth (before ++ y :: behind) := by
  rw [evalAll_append, evalAll_append, evalAll, evalAll, h]

theorem Frame.eval_fill_congr {frame : Frame} {x y : Sexp}
    (h : Sexp.eval limit (depth + frame.level) x = Sexp.eval limit (depth + frame.level) y) :
    Sexp.eval limit depth (frame.fill x) = Sexp.eval limit depth (frame.fill y) := by
  induction frame generalizing depth with
  | hole => exact h
  | argument head before inner behind ih =>
    have hlevel : depth + (inner.level + 1) = depth + 1 + inner.level := by omega
    rw [level, hlevel] at h
    rw [fill, fill, Sexp.eval, Sexp.eval, Sexp.evalAll_congr (ih h)]

namespace Program

theorem eval_fill_congr {frame : Frame} {x y : Sexp}
    (h : Sexp.eval limit frame.level x = Sexp.eval limit frame.level y)
    (before behind : List Sexp) :
    eval limit (before ++ frame.fill x :: behind) =
      eval limit (before ++ frame.fill y :: behind) := by
  rw [← Nat.zero_add frame.level] at h
  unfold eval
  rw [Sexp.evalAll_congr (Frame.eval_fill_congr h)]

/-- An S-expression that is a whole one of a program or is reached from there through arguments may
be replaced by its value, if it has one where it stands: the program comes to the same value or to
the same error. -/
theorem eval_fill_value {frame : Frame} {x : Sexp} {v : Value}
    (h : Sexp.eval limit frame.level x = .ok v) (before behind : List Sexp) :
    ∃ leaf, v = .atom leaf ∧
      eval limit (before ++ frame.fill (.atom leaf) :: behind) =
        eval limit (before ++ frame.fill x :: behind) := by
  obtain ⟨leaf, rfl⟩ := Sexp.exists_atom_of_eval h
  have hleaf : Sexp.eval limit frame.level (.atom leaf) = .ok (.atom leaf) := rfl
  exact ⟨leaf, rfl, eval_fill_congr (hleaf.trans h.symm) before behind⟩

/-- The sum stands two levels deep, in front of a string that is no integer. -/
theorem eval_fill_value_sum :
    Sexp.eval 3 2 (.list [.atom (.sym (.operator .add)), .atom (.int 1), .atom (.int 2)]) =
        .ok (.atom (.int 3)) ∧
      eval 3 [.list [.atom (.sym (.operator .mul)), .atom (.int 7),
        .list [.atom (.sym (.operator .sub)), .atom (.int 3), .atom (.str "a")]], .list []] =
          .error (.notInteger (.atom (.str "a"))) := by
  let frame : Frame := .argument (.atom (.sym (.operator .mul))) [.atom (.int 7)]
    (.argument (.atom (.sym (.operator .sub))) [] .hole [.atom (.str "a")]) []
  let sum : Sexp := .list [.atom (.sym (.operator .add)), .atom (.int 1), .atom (.int 2)]
  have hsum : Sexp.eval 3 frame.level sum = .ok (.atom (.int 3)) := by decide
  obtain ⟨leaf, hleaf, heval⟩ := eval_fill_value hsum [] [.list []]
  cases hleaf
  exact ⟨hsum, heval.trans (by decide)⟩

end Program
end PrefixCalc
