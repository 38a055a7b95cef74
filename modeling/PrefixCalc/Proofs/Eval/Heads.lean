import PrefixCalc.Proofs.Eval.Visits
import PrefixCalc.Proofs.Sexp.Limit

/-!
# PrefixCalc.Proofs.Eval.Heads

Heads that are no operators. A list with such a head has to be within the limit, but its head is
shown as it is, however deep that nests.

* `Sexp.depth_le_of_mem_visits`: a list that evaluation comes to is no deeper than what it stands in.
* `Program.eval_eq_error_iff_stopsAt`: the error of a program is that of the list where evaluation
  stops.
* `Program.eval_unknownOperator`: which heads are reported, and where.
-/

namespace PrefixCalc

variable {limit : Nat}

namespace Sexp

theorem depth_le_of_mem_visitsAll {depth : Nat} {items : List Sexp} {v : Visit}
    (h : ∀ x ∈ items, v ∈ visits limit depth x → v.depth + (list v.items).depth ≤ depth + x.depth)
    (hv : v ∈ visitsAll limit depth items) :
    v.depth + (list v.items).depth ≤ depth + depthAll items := by
  induction items with
  | nil => cases hv
  | cons x items ih =>
    obtain ⟨hx, hitems⟩ := List.forall_mem_cons.mp h
    rw [visitsAll, List.mem_append] at hv
    rw [depthAll]
    rcases hv with hv | hv
    · have := hx hv
      omega
    · have := ih hitems hv
      omega

theorem depth_le_of_mem_visits {depth : Nat} {x : Sexp} {v : Visit}
    (hv : v ∈ visits limit depth x) : v.depth + (list v.items).depth ≤ depth + x.depth := by
  induction x generalizing depth with
  | atom leaf => cases hv
  | list items ih =>
    cases items with
    | nil =>
      rw [visits, List.mem_singleton] at hv
      subst hv
      exact Nat.le_refl _
    | cons head args =>
      rcases Nat.lt_or_ge depth limit with hl | hl
      · rw [visits_cons_of_lt hl, List.mem_append, List.mem_singleton] at hv
        rcases hv with hv | rfl
        · have hargs := depth_le_of_mem_visitsAll
            (fun x hx => ih x (List.mem_cons_of_mem head hx)) hv
          rw [depth_list_cons]
          omega
        · exact Nat.le_refl _
      · rw [visits_list_of_le hl, List.mem_singleton] at hv
        subst hv
        exact Nat.le_refl _

/-- Sums of one argument around an S-expression. -/
def inSums : Nat → Sexp → Sexp
  | 0, x => x
  | n + 1, x => .list [.atom (.sym (.operator .add)), inSums n x]

theorem visits_inSums {n depth : Nat} (h : depth + n ≤ limit) (x : Sexp) :
    ∃ back, visits limit depth (inSums n x) = visits limit (depth + n) x ++ back := by
  induction n generalizing depth with
  | zero => exact ⟨[], (List.append_nil _).symm⟩
  | succ n ih =>
    have hstep : depth + 1 + n = depth + (n + 1) := by omega
    have hle : depth + 1 + n ≤ limit := by omega
    obtain ⟨back, hback⟩ := ih hle
    rw [inSums, visits_cons_of_lt (by omega), visitsAll, visitsAll, List.append_nil, hback, hstep,
      List.append_assoc]
    exact ⟨_, rfl⟩

end Sexp

theorem Visit.failure?_eq_unknownOperator_iff {v : Visit} {text : String} :
    v.failure? limit = some (.unknownOperator text) ↔
      ∃ head args, v.items = head :: args ∧ (∀ op, head ≠ .atom (.sym (.operator op))) ∧
        v.depth < limit ∧ text = head.text := by
  obtain ⟨depth, items⟩ := v
  constructor
  · intro h
    rcases Nat.lt_or_ge depth limit with hl | hl
    · cases items with
      | nil =>
        rw [failure?_nil hl] at h
        cases h
      | cons head args =>
        rcases Sexp.primitive_cases head with ⟨op, rfl⟩ | ⟨hop, -⟩
        · rw [failure?_call hl, ← Operator.call_eq_error_iff] at h
          rcases Operator.error_of_call h with ⟨_, h'⟩ | ⟨_, _, _, h'⟩ | ⟨_, _, h'⟩ <;> cases h'
        · rw [failure?_head hl hop] at h
          cases h
          exact ⟨head, args, rfl, hop, hl, rfl⟩
    · rw [failure?_of_le hl] at h
      cases h
  · rintro ⟨head, args, rfl, hop, hl, rfl⟩
    exact failure?_head hl hop

namespace Program

variable {program : Program} {level : Nat} {head : Sexp} {args : List Sexp}

theorem eval_eq_error_iff_stopsAt {e : EvalError} :
    program.eval limit = .error e ↔
      ∃ v, program.StopsAt limit v ∧ v.failure? limit = some e := by
  rw [eval_eq_error_iff, failure?, List.findSome?_eq_some_iff]
  constructor
  · rintro ⟨front, v, back, hvisits, hv, hfront⟩
    exact ⟨v, ⟨front, back, hvisits, hfront, by simp [hv]⟩, hv⟩
  · rintro ⟨v, ⟨front, back, hvisits, hfront, -⟩, hv⟩
    exact ⟨front, v, back, hvisits, hv, hfront⟩

theorem StopsAt.depth_le (h : program.StopsAt limit ⟨level, head :: args⟩) :
    level + 1 + head.depth ≤ program.depth := by
  obtain ⟨front, back, hvisits, -, -⟩ := h
  have hmem : ⟨level, head :: args⟩ ∈ Sexp.visitsAll limit 0 program := by
    rw [hvisits]
    simp
  have hle : level + (Sexp.list (head :: args)).depth ≤ 0 + Sexp.depthAll program :=
    Sexp.depth_le_of_mem_visitsAll (fun x _ => Sexp.depth_le_of_mem_visits) hmem
  rw [Sexp.depth_list_cons] at hle
  rw [Program.depth]
  omega

theorem exists_stopsAt (h : level < limit) (hop : ∀ op, head ≠ .atom (.sym (.operator op))) :
    ∃ program : Program, program.StopsAt limit ⟨level, [head]⟩ := by
  have hle : 0 + level ≤ limit := by omega
  obtain ⟨back, hback⟩ := Sexp.visits_inSums hle (.list [head])
  rw [Nat.zero_add, Sexp.visits_cons_of_lt h, Sexp.visitsAll, List.nil_append] at hback
  refine ⟨[Sexp.inSums level (.list [head])], [], back, ?_, by simp, ?_⟩
  · rw [Sexp.visitsAll, Sexp.visitsAll, List.append_nil, hback]
    rfl
  · rw [Visit.failure?_head h hop]
    simp

theorem eval_eq_unknownOperator_iff {text : String} :
    program.eval limit = .error (.unknownOperator text) ↔
      ∃ level head args, program.StopsAt limit ⟨level, head :: args⟩ ∧
        (∀ op, head ≠ .atom (.sym (.operator op))) ∧ level < limit ∧ text = head.text := by
  rw [eval_eq_error_iff_stopsAt]
  constructor
  · rintro ⟨⟨level, items⟩, hstops, hv⟩
    obtain ⟨head, args, rfl, hop, hl, rfl⟩ := Visit.failure?_eq_unknownOperator_iff.mp hv
    exact ⟨level, head, args, hstops, hop, hl, rfl⟩
  · rintro ⟨level, head, args, hstops, hop, hl, rfl⟩
    exact ⟨_, hstops, Visit.failure?_head hl hop⟩

/-- An unknown operator is the head of the list where evaluation stops. That list stands within the
limit, and with its head it is no deeper than the program. Nothing else bounds the head: at every
level within the limit each list, however deep, is reported as the head of some list. Reading the
text of the same program would not come so far: where the head is beyond the limit, the text is too
deep. -/
theorem eval_unknownOperator (limit : Nat) :
    (∀ (program : Program) (text : String),
      program.eval limit = .error (.unknownOperator text) ↔
        ∃ level head args, program.StopsAt limit ⟨level, head :: args⟩ ∧
          (∀ op, head ≠ .atom (.sym (.operator op))) ∧ level < limit ∧ text = head.text) ∧
    (∀ (program : Program) (level : Nat) (head : Sexp) (args : List Sexp),
      program.StopsAt limit ⟨level, head :: args⟩ →
        level + 1 + head.depth ≤ program.depth ∧
        (limit < level + 1 + head.depth → program.Readable →
          ofText limit program.text = .error (.nestingTooDeep limit))) ∧
    ∀ (level : Nat) (items : List Sexp), level < limit →
      ∃ program : Program, program.StopsAt limit ⟨level, [.list items]⟩ ∧
        program.eval limit = .error (.unknownOperator (Sexp.list items).text) := by
  refine ⟨fun _ _ => eval_eq_unknownOperator_iff, fun program level head args h => ?_,
    fun level items hl => ?_⟩
  · refine ⟨h.depth_le, fun hlimit hr => ofText_text_of_lt_depth hr ?_⟩
    exact Nat.lt_of_lt_of_le hlimit h.depth_le
  · have hop : ∀ op, Sexp.list items ≠ .atom (.sym (.operator op)) := by simp
    obtain ⟨program, hstops⟩ := exists_stopsAt hl hop
    exact ⟨program, hstops,
      eval_eq_unknownOperator_iff.mpr ⟨level, _, _, hstops, hop, hl, rfl⟩⟩

/-- Under the limit two, a head that nests three levels deep is reported at the second level. -/
theorem eval_unknownOperator_nested :
    eval 2 [.list [.atom (.sym (.operator .add)),
        .list [.list [.list [.list []]], .atom (.int 1)]]] = .error (.unknownOperator "((()))") ∧
      ofText 2 (text [.list [.atom (.sym (.operator .add)),
        .list [.list [.list [.list []]], .atom (.int 1)]]]) = .error (.nestingTooDeep 2) ∧
      ∃ program : Program, program.eval 2 = .error (.unknownOperator "((()))") := by
  obtain ⟨hreport, hstopped, hany⟩ := eval_unknownOperator 2
  let inner : List Sexp := [.list [.list [.list []]], .atom (.int 1)]
  have hstops : StopsAt 2 [.list [.atom (.sym (.operator .add)), .list inner]] ⟨1, inner⟩ :=
    ⟨[], [⟨0, [.atom (.sym (.operator .add)), .list inner]⟩], rfl, by simp, by decide⟩
  have hr : Readable [.list [.atom (.sym (.operator .add)), .list inner]] := by
    simp [Readable, inner, Sexp.leavesAll, Sexp.leaves, Atom.Readable]
  have hop : ∀ op, Sexp.list [.list [.list []]] ≠ .atom (.sym (.operator op)) := by simp
  have htext : "((()))" = (Sexp.list [.list [.list []]]).text := by decide
  obtain ⟨program, -, hprogram⟩ := hany 1 [.list [.list []]] (by decide)
  rw [← htext] at hprogram
  exact ⟨(hreport _ _).mpr ⟨1, _, _, hstops, hop, by decide, htext⟩,
    (hstopped _ _ _ _ hstops).2 (by decide) hr, program, hprogram⟩

/-- A list within the limit whose head is beyond it: evaluation reports the head, and does not say
that it is too deep, as reading does. -/
theorem eval_head_beyond_limit :
    StopsAt 1 [.list [.list []]] ⟨0, [.list []]⟩ ∧
      eval 1 [.list [.list []]] = .error (.unknownOperator "()") ∧
      ¬ 0 + 1 + (Sexp.list []).depth ≤ 1 ∧
      ofText 1 (text [.list [.list []]]) = .error (.nestingTooDeep 1) := by
  have hr : Readable [.list [.list []]] := by simp [Readable, Sexp.leavesAll, Sexp.leaves]
  exact ⟨⟨[], [], rfl, by simp, by decide⟩, by decide, by decide,
    ofText_text_of_lt_depth hr (by decide)⟩

end Program
end PrefixCalc
