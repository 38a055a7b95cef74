import PrefixCalc.Dump
import PrefixCalc.Proofs.Atom.Readable
import PrefixCalc.Proofs.Text.Quoted

/-!
# PrefixCalc.Proofs.Dump

The listings of tokens and of programs say all there is: nothing else has the same listing.

* `selfDelimiting_sexpLines`: the lines of an S-expression show where it ends, so neither a text in it
  nor its neighbours can pass for a part of it.
* `lines_of_program`: no line is broken, so the lines are told from the text that they are joined to.
* `listings_injective`: both listings together.
-/

namespace PrefixCalc
namespace Dump

/-! ## Tokens on one line -/

/-- A token that is not the first. -/
def itemChars (token : Token) : List Char :=
  ',' :: ' ' :: (Quoted.ofText token).toList

theorem selfDelimiting_itemChars (token : Token) : SelfDelimiting itemChars token := by
  intro t r s h
  simp only [itemChars, List.cons_append, List.cons.injEq, true_and] at h
  exact Quoted.selfDelimiting_ofText token t r s h

theorem toList_tokens_cons (token : Token) (rest : List Token) :
    (tokens (token :: rest)).toList =
      '[' :: ((Quoted.ofText token).toList ++ (rest.flatMap itemChars ++ [']'])) := by
  have hitems : (", ".intercalate ((token :: rest).map Quoted.ofText)).toList =
      (Quoted.ofText token).toList ++ rest.flatMap itemChars := by
    induction rest generalizing token with
    | nil => simp
    | cons u rest ih =>
      rw [List.map_cons, List.map_cons, String.intercalate_cons_cons, ← List.map_cons,
        String.toList_append, ih u, List.flatMap_cons, itemChars]
      simp
  rw [tokens, String.toList_append, String.toList_append, hitems]
  simp

theorem tokens_injective {ts us : List Token} (h : tokens ts = tokens us) : ts = us := by
  have hcs := congrArg String.toList h
  have hempty (t : Token) (rest : List Token) : (tokens []).toList ≠ (tokens (t :: rest)).toList := by
    rw [toList_tokens_cons, Quoted.toList_ofText]
    simp [tokens]
  cases ts with
  | nil =>
    cases us with
    | nil => rfl
    | cons u us => exact absurd hcs (hempty u us)
  | cons t ts =>
    cases us with
    | nil => exact absurd hcs.symm (hempty t ts)
    | cons u us =>
      rw [toList_tokens_cons, toList_tokens_cons] at hcs
      obtain ⟨rfl, hrest⟩ := Quoted.selfDelimiting_ofText t u _ _ (List.cons.inj hcs).2
      obtain ⟨rfl, -⟩ := SelfDelimiting.flatMap (fun v _ => selfDelimiting_itemChars v)
        (fun v r s e => absurd (List.cons.inj e).1 (by decide)) hrest
      rfl

/-! ## Lines -/

theorem toList_line (level : Nat) (content : String) :
    (line level content).toList = List.replicate (4 * level) ' ' ++ content.toList := by
  rw [line, String.toList_append, String.toList_ofList]

theorem line_inj {level : Nat} {a b : String} : line level a = line level b ↔ a = b := by
  rw [← String.toList_inj, toList_line, toList_line, List.append_cancel_left_eq, String.toList_inj]

/-- The content of a line is told from its indentation, if it does not start with a blank. -/
theorem content_of_line {m n : Nat} {a b : String} (ha : a.toList.head? ≠ some ' ')
    (hb : b.toList.head? ≠ some ' ') (h : line m a = line n b) : a = b := by
  have hdrop (k : Nat) (c : String) (hc : c.toList.head? ≠ some ' ') :
      (line k c).toList.dropWhile (· == ' ') = c.toList := by
    rw [toList_line, List.dropWhile_append_of_pos (by simp)]
    cases hcs : c.toList with
    | nil => rfl
    | cons d cs => exact List.dropWhile_cons_of_neg (by simpa [hcs] using hc)
  rw [← String.toList_inj, ← hdrop m a ha, ← hdrop n b hb, h]

section
variable {α : Type} {level : Nat} {name name' : String} {field field' r s : List String}

theorem wrapped_append_inj (h : wrapped level name field ++ r = wrapped level name' field' ++ s) :
    name = name' ∧ field ++ line level ")," :: r = field' ++ line level ")," :: s := by
  simp only [wrapped, List.cons_append, List.append_assoc, List.nil_append] at h
  obtain ⟨hhead, hrest⟩ := List.cons.inj h
  have hname := line_inj.mp hhead
  rw [String.append_left_inj] at hname
  exact ⟨hname, hrest⟩

/-- A constructor with one line for its field. -/
theorem wrapped_line_append_inj {a b : String}
    (h : wrapped level name [line (level + 1) (a ++ ",")] ++ r =
      wrapped level name' [line (level + 1) (b ++ ",")] ++ s) : name = name' ∧ a = b ∧ r = s := by
  obtain ⟨hname, hfield⟩ := wrapped_append_inj h
  obtain ⟨hline, hrest⟩ := List.cons.inj hfield
  have hab := line_inj.mp hline
  rw [String.append_left_inj] at hab
  exact ⟨hname, hab, (List.cons.inj hrest).2⟩

end

/-! ## Atoms -/

theorem operatorName_injective {o p : Operator} (h : operatorName o = operatorName p) : o = p := by
  cases o <;> cases p <;> first | rfl | simp [operatorName] at h

theorem selfDelimiting_symbolLines (level : Nat) (symbol : Symbol) :
    SelfDelimiting (symbolLines level) symbol := by
  intro other r s h
  cases symbol with
  | operator o =>
    cases other with
    | operator p =>
      obtain ⟨-, hop, hrs⟩ := wrapped_line_append_inj h
      exact ⟨by rw [operatorName_injective hop], hrs⟩
    | name t => exact absurd (wrapped_append_inj h).1 (by decide)
  | name t =>
    cases other with
    | operator p => exact absurd (wrapped_append_inj h).1 (by decide)
    | name u =>
      obtain ⟨-, htext, hrs⟩ := wrapped_line_append_inj h
      exact ⟨by rw [Quoted.ofText_injective htext], hrs⟩

theorem ofInt_injective {y z : Int} (h : Decimal.ofInt y = Decimal.ofInt z) : y = z := by
  have hy := Decimal.integer?_ofInt y
  rw [h, Decimal.integer?_ofInt z] at hy
  exact (Option.some.inj hy).symm

theorem boolText_injective {a b : Bool} (h : boolText a = boolText b) : a = b := by
  cases a <;> cases b <;> first | rfl | simp [boolText] at h

theorem selfDelimiting_atomLines (level : Nat) (leaf : Atom) :
    SelfDelimiting (atomLines level) leaf := by
  intro other r s h
  cases leaf with
  | int m =>
    cases other with
    | int n =>
      obtain ⟨-, htext, hrs⟩ := wrapped_line_append_inj h
      exact ⟨by rw [Int64.toInt_inj.mp (ofInt_injective htext)], hrs⟩
    | _ => exact absurd (wrapped_append_inj h).1 (by decide)
  | str t =>
    cases other with
    | str u =>
      obtain ⟨-, htext, hrs⟩ := wrapped_line_append_inj h
      exact ⟨by rw [Quoted.ofText_injective htext], hrs⟩
    | _ => exact absurd (wrapped_append_inj h).1 (by decide)
  | bool a =>
    cases other with
    | bool b =>
      obtain ⟨-, htext, hrs⟩ := wrapped_line_append_inj h
      exact ⟨by rw [boolText_injective htext], hrs⟩
    | _ => exact absurd (wrapped_append_inj h).1 (by decide)
  | sym x =>
    cases other with
    | sym y =>
      obtain ⟨-, hlines⟩ := wrapped_append_inj h
      obtain ⟨rfl, hrest⟩ := selfDelimiting_symbolLines (level + 1) x y _ _ hlines
      exact ⟨rfl, (List.cons.inj hrest).2⟩
    | _ => exact absurd (wrapped_append_inj h).1 (by decide)

/-! ## S-expressions -/

theorem sexpLinesAll_eq_flatMap (level : Nat) (items : List Sexp) :
    sexpLinesAll level items = items.flatMap (sexpLines level) := by
  induction items with
  | nil => rfl
  | cons x rest ih => rw [sexpLinesAll, ih, List.flatMap_cons]

theorem exists_sexpLines_eq_cons (level : Nat) (x : Sexp) :
    ∃ name ∈ ["Atom(", "Expression("], ∃ rest, sexpLines level x = line level name :: rest := by
  cases x with
  | atom leaf => exact ⟨"Atom(", by simp, _, by rw [sexpLines, wrapped]; rfl⟩
  | list items => exact ⟨"Expression(", by simp, _, by rw [sexpLines, wrapped]; rfl⟩

/-- The line behind the last item starts no item, and neither does the line of an empty list open
one. -/
theorem sexpLines_append_ne {m n : Nat} (x : Sexp) (r s : List String) :
    sexpLines m x ++ r ≠ line n "]," :: s := by
  obtain ⟨name, hname, rest, hx⟩ := exists_sexpLines_eq_cons m x
  rw [hx, List.cons_append]
  intro h
  have hline := (List.cons.inj h).1
  simp only [List.mem_cons, List.not_mem_nil, or_false] at hname
  rcases hname with rfl | rfl
  · exact absurd (content_of_line (by decide) (by decide) hline) (by decide)
  · exact absurd (content_of_line (by decide) (by decide) hline) (by decide)

theorem bracketed_cons (level : Nat) (x : Sexp) (rest : List Sexp) :
    bracketed level (sexpLinesAll (level + 1) (x :: rest)) =
      line level "[" :: ((x :: rest).flatMap (sexpLines (level + 1)) ++ [line level "],"]) := by
  obtain ⟨name, -, lines, hx⟩ := exists_sexpLines_eq_cons (level + 1) x
  rw [sexpLinesAll_eq_flatMap, List.flatMap_cons, hx, List.cons_append, bracketed]

/-- The lines of a list show where it ends if those of its items do. -/
theorem bracketed_append_inj {level : Nat} {xs ys : List Sexp} {r s : List String}
    (hxs : ∀ x ∈ xs, SelfDelimiting (sexpLines (level + 1)) x)
    (h : bracketed level (sexpLinesAll (level + 1) xs) ++ r =
      bracketed level (sexpLinesAll (level + 1) ys) ++ s) : xs = ys ∧ r = s := by
  have hempty : line level "[]," ≠ line level "[" := by
    rw [ne_eq, line_inj]
    decide
  cases xs with
  | nil =>
    cases ys with
    | nil => exact ⟨rfl, (List.cons.inj h).2⟩
    | cons y ys =>
      rw [bracketed_cons] at h
      exact absurd (List.cons.inj h).1 hempty
  | cons x xs =>
    cases ys with
    | nil =>
      rw [bracketed_cons] at h
      exact absurd (List.cons.inj h).1.symm hempty
    | cons y ys =>
      rw [bracketed_cons, bracketed_cons, List.cons_append, List.cons_append, List.append_assoc,
        List.append_assoc] at h
      exact SelfDelimiting.flatMap hxs (fun z t u => sexpLines_append_ne z t u) (List.cons.inj h).2

theorem selfDelimiting_sexpLines (level : Nat) (x : Sexp) : SelfDelimiting (sexpLines level) x := by
  induction x generalizing level with
  | atom leaf =>
    intro y r s h
    cases y with
    | atom other =>
      obtain ⟨-, hlines⟩ := wrapped_append_inj h
      obtain ⟨rfl, hrest⟩ := selfDelimiting_atomLines (level + 1) leaf other _ _ hlines
      exact ⟨rfl, (List.cons.inj hrest).2⟩
    | list ys => exact absurd (wrapped_append_inj h).1 (by decide)
  | list xs ih =>
    intro y r s h
    cases y with
    | atom other => exact absurd (wrapped_append_inj h).1 (by decide)
    | list ys =>
      obtain ⟨-, hinner⟩ := wrapped_append_inj h
      obtain ⟨-, hitems⟩ := wrapped_append_inj hinner
      obtain ⟨rfl, hrest⟩ := bracketed_append_inj (fun x hx => ih x hx (level + 3)) hitems
      exact ⟨rfl, (List.cons.inj (List.cons.inj hrest).2).2⟩

/-! ## Joined lines -/

section
variable {level : Nat}

theorem newline_not_mem_line {content : String} (h : '\n' ∉ content.toList) :
    '\n' ∉ (line level content).toList := by
  rw [toList_line, List.mem_append]
  rintro (hspace | hcontent)
  · exact absurd (List.eq_of_mem_replicate hspace) (by decide)
  · exact h hcontent

theorem newline_not_mem_wrapped {name : String} {field : List String} (hname : '\n' ∉ name.toList)
    (hfield : ∀ l ∈ field, '\n' ∉ l.toList) : ∀ l ∈ wrapped level name field, '\n' ∉ l.toList := by
  intro l hl
  simp only [wrapped, List.mem_cons, List.mem_append, List.not_mem_nil, or_false] at hl
  rcases hl with rfl | hl | rfl
  · exact newline_not_mem_line (by simpa using hname)
  · exact hfield l hl
  · exact newline_not_mem_line (by decide)

theorem newline_not_mem_wrapped_line {name content : String} (hname : '\n' ∉ name.toList)
    (hcontent : '\n' ∉ content.toList) :
    ∀ l ∈ wrapped level name [line (level + 1) (content ++ ",")], '\n' ∉ l.toList := by
  refine newline_not_mem_wrapped hname fun l hl => ?_
  rw [List.mem_singleton.mp hl]
  exact newline_not_mem_line (by simpa using hcontent)

theorem newline_not_mem_ofInt (z : Int) : '\n' ∉ (Decimal.ofInt z).toList :=
  fun h => absurd (isPlain_ofInt z '\n' h) (by decide)

theorem newline_not_mem_atomLines (leaf : Atom) :
    ∀ l ∈ atomLines level leaf, '\n' ∉ l.toList := by
  cases leaf with
  | int n => exact newline_not_mem_wrapped_line (by decide) (newline_not_mem_ofInt _)
  | str t => exact newline_not_mem_wrapped_line (by decide) (Quoted.newline_not_mem_ofText t)
  | bool b => exact newline_not_mem_wrapped_line (by decide) (by cases b <;> decide)
  | sym x =>
    refine newline_not_mem_wrapped (by decide) ?_
    cases x with
    | operator o => exact newline_not_mem_wrapped_line (by decide) (by cases o <;> decide)
    | name t => exact newline_not_mem_wrapped_line (by decide) (Quoted.newline_not_mem_ofText t)

theorem newline_not_mem_bracketed {items : List String} (h : ∀ l ∈ items, '\n' ∉ l.toList) :
    ∀ l ∈ bracketed level items, '\n' ∉ l.toList := by
  intro l hl
  cases items with
  | nil =>
    rw [List.mem_singleton.mp hl]
    exact newline_not_mem_line (by decide)
  | cons a items =>
    rcases List.mem_cons.mp hl with rfl | hl
    · exact newline_not_mem_line (by decide)
    · rcases List.mem_append.mp hl with hl | hl
      · exact h l hl
      · rw [List.mem_singleton.mp hl]
        exact newline_not_mem_line (by decide)

end

theorem newline_not_mem_sexpLinesAll {level : Nat} {items : List Sexp}
    (h : ∀ x ∈ items, ∀ l ∈ sexpLines level x, '\n' ∉ l.toList) :
    ∀ l ∈ sexpLinesAll level items, '\n' ∉ l.toList := by
  intro l hl
  rw [sexpLinesAll_eq_flatMap] at hl
  obtain ⟨x, hx, hlx⟩ := List.mem_flatMap.mp hl
  exact h x hx l hlx

theorem newline_not_mem_sexpLines (level : Nat) (x : Sexp) :
    ∀ l ∈ sexpLines level x, '\n' ∉ l.toList := by
  induction x generalizing level with
  | atom leaf => exact newline_not_mem_wrapped (by decide) (newline_not_mem_atomLines leaf)
  | list items ih =>
    have hitems := newline_not_mem_sexpLinesAll fun x hx => ih x hx (level + 3)
    exact newline_not_mem_wrapped (by decide)
      (newline_not_mem_wrapped (by decide) (newline_not_mem_bracketed hitems))

/-- The lines of a program. -/
def programLines (program : Program) : List String :=
  ["Program("] ++ bracketed 1 (sexpLinesAll 2 program) ++ [")"]

/-- The lines of a program are what its listing is split into at newlines. -/
theorem lines_of_program (p : Program) :
    (program p).toList.splitOn '\n' = (programLines p).map String.toList := by
  have hlines : ∀ l ∈ programLines p, '\n' ∉ l.toList := by
    intro l hl
    simp only [programLines, List.mem_append, List.mem_singleton] at hl
    rcases hl with (rfl | hl) | rfl
    · decide
    · have hitems := newline_not_mem_sexpLinesAll fun x (_ : x ∈ p) => newline_not_mem_sexpLines 2 x
      exact newline_not_mem_bracketed hitems l hl
    · decide
  have hjoined : (program p).toList = ['\n'].intercalate ((programLines p).map String.toList) := by
    rw [program, String.toList_intercalate]
    rfl
  rw [hjoined]
  refine List.splitOn_intercalate '\n' ?_ (by simp [programLines])
  intro cs hcs
  obtain ⟨l, hl, rfl⟩ := List.mem_map.mp hcs
  exact hlines l hl

theorem program_injective {p q : Program} (h : program p = program q) : p = q := by
  have hchars : (programLines p).map String.toList = (programLines q).map String.toList := by
    rw [← lines_of_program, ← lines_of_program, h]
  have hlines : programLines p = programLines q :=
    (List.map_inj_right fun _ _ e => String.toList_injective e).mp hchars
  have hitems := (List.cons.inj (List.append_inj' hlines rfl).1).2
  exact (bracketed_append_inj (fun x _ => selfDelimiting_sexpLines 2 x)
    (congrArg (· ++ []) hitems)).1

/-- Lists of tokens with the same listing are the same, and so are programs, whatever their texts
hold: quotes, backslashes, newlines, or what looks like a part of a listing. -/
theorem listings_injective : Function.Injective tokens ∧ Function.Injective program :=
  ⟨fun _ _ => tokens_injective, fun _ _ => program_injective⟩

/-- A quote and a newline, which do not end the text or the line that they stand in. -/
example : tokens ["\"\\\n"] = "[\"\\\"\\\\\\n\"]" := by decide

end Dump
end PrefixCalc
