import PrefixCalc.Sexp.Nesting

/-!
# PrefixCalc.Proofs.Sexp.Nesting

Reading by recursive descent against the walk over the parentheses with a stack of open lists.

* `walk_read`: while an S-expression is read, the walk goes over the same tokens and leaves the
  stack as it was; where reading fails, the walk stops with the same error.
* `ofTokens_walk`: a program is read exactly if the walk finds nothing wrong, and otherwise the
  error is what the walk finds.
-/

namespace PrefixCalc
namespace Nesting

/-- The walk from `places` with the stack `opened` does what the result says: it stops with the
error, or it goes on from what is left, and then the stack is `after`. -/
def Follows {α : Type} {n : Nat} (limit : Nat) (opened : List Nat) (places : List Place)
    (after : List Nat) : Except ReadError (Parsed α n) → Prop
  | .ok r => error? limit opened places = error? limit after r.rest
  | .error e => error? limit opened places = some e

theorem error?_opening {limit index : Nat} {opened : List Nat} {rest : List Place} :
    error? limit opened ((Token.opening, index) :: rest) =
      if limit ≤ opened.length then some (.nestingTooDeep limit)
      else error? limit (index :: opened) rest := by
  cases opened <;> simp [error?]

theorem error?_closing_nil {limit index : Nat} {rest : List Place} :
    error? limit [] ((Token.closing, index) :: rest) = some (.unmatchedClose index) := by
  simp [error?, Token.opening, Token.closing]

theorem error?_closing_cons {limit index o : Nat} {opened : List Nat} {rest : List Place} :
    error? limit (o :: opened) ((Token.closing, index) :: rest) = error? limit opened rest := by
  simp [error?, Token.opening, Token.closing]

theorem error?_other {limit index : Nat} {token : Token} {opened : List Nat} {rest : List Place}
    (ho : token ≠ Token.opening) (hc : token ≠ Token.closing) :
    error? limit opened ((token, index) :: rest) = error? limit opened rest := by
  cases opened <;> simp [error?, ho, hc]

/-- The walk follows reading, one S-expression or the items of one list at a time. -/
theorem walk_read (limit : Nat) :
    (∀ (depth : Nat) (token : Token) (index : Nat) (rest : List Place) (opened : List Nat),
      opened.length = depth → (token = Token.closing → opened = []) →
        Follows limit opened ((token, index) :: rest) opened
          (Sexp.read limit depth token index rest)) ∧
    (∀ (depth opener : Nat) (places : List Place) (opened : List Nat),
      opened.length + 1 = depth →
        Follows limit (opener :: opened) places opened
          (Sexp.readItems limit depth opener places)) := by
  apply Sexp.read.mutual_induct limit
  case case1 =>
    intro depth index rest hl opened hlen _
    have hl' : limit ≤ opened.length := by omega
    simp [Sexp.read, hl, Follows, error?_opening, hl']
  case case2 =>
    intro depth index rest hl e he ih opened hlen _
    have hl' : ¬ limit ≤ opened.length := by omega
    have hw := ih opened (by omega)
    simp only [he, Follows] at hw
    simp [Sexp.read, hl, he, Follows, error?_opening, hl', hw]
  case case3 =>
    intro depth index rest hl items rest' hle he ih opened hlen _
    have hl' : ¬ limit ≤ opened.length := by omega
    have hw := ih opened (by omega)
    simp only [he, Follows] at hw
    simp [Sexp.read, hl, he, Follows, error?_opening, hl', hw]
  case case4 =>
    intro depth index rest ho opened hlen hnil
    obtain rfl := hnil rfl
    simp [Sexp.read, ho, Follows, error?_closing_nil]
  case case5 =>
    intro depth token index rest ho hc e he opened hlen _
    obtain ⟨leaf, hleaf, -⟩ := Atom.exists_ofToken token
    rw [hleaf] at he
    cases he
  case case6 =>
    intro depth token index rest ho hc leaf he opened hlen _
    simp [Sexp.read, ho, hc, he, Follows, error?_other ho hc]
  case case7 =>
    intro depth opener opened hlen
    simp [Sexp.readItems, Follows, error?]
  case case8 =>
    intro depth opener index rest opened hlen
    simp [Sexp.readItems, Follows, error?_closing_cons]
  case case9 =>
    intro depth opener token index rest hc e he ih opened hlen
    have hw := ih (opener :: opened) hlen (fun h => absurd h hc)
    simp only [he, Follows] at hw
    simp [Sexp.readItems, hc, he, Follows, hw]
  case case10 =>
    intro depth opener token index rest hc item rest' hle he e he' ih ih' opened hlen
    have hw := ih (opener :: opened) hlen (fun h => absurd h hc)
    have hw' := ih' opened hlen
    simp only [he, he', Follows] at hw hw'
    simp [Sexp.readItems, hc, he, he', Follows, hw, hw']
  case case11 =>
    intro depth opener token index rest hc item rest' hle he items rest'' hle' he' ih ih' opened
      hlen
    have hw := ih (opener :: opened) hlen (fun h => absurd h hc)
    have hw' := ih' opened hlen
    simp only [he, he', Follows] at hw hw'
    simp [Sexp.readItems, hc, he, he', Follows, hw, hw']

/-- The walk finds what is wrong with the tokens of a program where reading fails, and nothing
where it does not. -/
theorem walk_readAll (limit : Nat) (places : List Place) :
    match Sexp.readAll limit places with
    | .ok _ => error? limit [] places = none
    | .error e => error? limit [] places = some e := by
  fun_induction Sexp.readAll limit places with
  | case1 => simp [error?]
  | case2 token index rest e he =>
    have hw := (walk_read limit).1 0 token index rest [] rfl (fun _ => rfl)
    simpa only [he, Follows] using hw
  | case3 token index rest item rest' hle he e he' ih =>
    have hw := (walk_read limit).1 0 token index rest [] rfl (fun _ => rfl)
    simp only [he, Follows] at hw
    simpa only [he', hw] using ih
  | case4 token index rest item rest' hle he items he' ih =>
    have hw := (walk_read limit).1 0 token index rest [] rfl (fun _ => rfl)
    simp only [he, Follows] at hw
    simpa only [he', hw] using ih

/-- What can be wrong with tokens: the nesting, or the parenthesis at an index, which is one of
those among `places` or, if it opens a list, one of those `opened` before. -/
def Names (limit : Nat) (opened : List Nat) (places : List Place) (e : ReadError) : Prop :=
  (∃ i, e = .unmatchedClose i ∧ (Token.closing, i) ∈ places) ∨ e = .nestingTooDeep limit ∨
    (∃ i, e = .unclosedExpression i ∧ (i ∈ opened ∨ (Token.opening, i) ∈ places))

theorem Names.cons {limit : Nat} {opened opened' : List Nat} {place : Place}
    {places : List Place} {e : ReadError} (h : Names limit opened' places e)
    (ho : ∀ i ∈ opened', i ∈ opened ∨ (Token.opening, i) = place) :
    Names limit opened (place :: places) e := by
  rcases h with ⟨i, he, hi⟩ | he | ⟨i, he, hi⟩
  · exact .inl ⟨i, he, List.mem_cons_of_mem _ hi⟩
  · exact .inr (.inl he)
  · refine .inr (.inr ⟨i, he, ?_⟩)
    rcases hi with hi | hi
    · rcases ho i hi with hi | hi
      · exact .inl hi
      · exact .inr (List.mem_cons.mpr (.inl hi))
    · exact .inr (List.mem_cons_of_mem _ hi)

theorem names_of_error? {limit : Nat} {opened : List Nat} {places : List Place} {e : ReadError}
    (h : error? limit opened places = some e) : Names limit opened places e := by
  fun_induction error? limit opened places with
  | case1 => cases h
  | case2 o outer =>
    cases h
    exact .inr (.inr ⟨o, rfl, .inl (List.mem_cons_self ..)⟩)
  | case3 opened index rest hl =>
    cases h
    exact .inr (.inl rfl)
  | case4 opened index rest hl ih =>
    refine (ih h).cons fun i hi => ?_
    rcases List.mem_cons.mp hi with rfl | hi
    · exact .inr rfl
    · exact .inl hi
  | case5 index rest ho =>
    cases h
    exact .inl ⟨index, rfl, List.mem_cons_self ..⟩
  | case6 index rest ho o outer ih => exact (ih h).cons fun i hi => .inl (List.mem_cons_of_mem _ hi)
  | case7 opened token index rest ho hc ih => exact (ih h).cons fun i hi => .inl hi

theorem ofTokens_eq_error_iff {limit : Nat} {tokens : List Token} {e : ReadError} :
    Program.ofTokens limit tokens = .error e ↔ error? limit [] tokens.zipIdx = some e := by
  have hw := walk_readAll limit tokens.zipIdx
  unfold Program.ofTokens
  constructor
  · intro h
    simpa only [h] using hw
  · intro h
    split at hw
    · rw [hw] at h
      cases h
    · rename_i e' he
      rw [hw] at h
      cases h
      exact he

theorem exists_ofTokens_iff {limit : Nat} {tokens : List Token} :
    (∃ program, Program.ofTokens limit tokens = .ok program) ↔
      error? limit [] tokens.zipIdx = none := by
  have hw := walk_readAll limit tokens.zipIdx
  unfold Program.ofTokens
  constructor
  · rintro ⟨program, h⟩
    simpa only [h] using hw
  · intro h
    split at hw
    · rename_i program hp
      exact ⟨program, hp⟩
    · rw [hw] at h
      cases h

end Nesting

/-- A text whose tokens have something wrong with them is not read. -/
theorem Program.ofText_of_error? {limit : Nat} {text : String} {tokens : List Token} {e : ReadError}
    (ht : Token.ofText text = .ok tokens) (he : Nesting.error? limit [] tokens.zipIdx = some e) :
    ofText limit text = .error e := by
  rw [ofText, ht]
  exact Nesting.ofTokens_eq_error_iff.mpr he

/-- Reading tokens ends as the walk over them does. There is a program exactly if the walk finds
nothing wrong, and else the error is the first thing that it finds. So no token fails as a literal,
and every index in an error is that of a parenthesis, never one behind the last token. -/
theorem Program.ofTokens_walk (limit : Nat) (tokens : List Token) :
    ((∃ program, ofTokens limit tokens = .ok program) ↔
      Nesting.error? limit [] tokens.zipIdx = none) ∧
    (∀ e, ofTokens limit tokens = .error e ↔ Nesting.error? limit [] tokens.zipIdx = some e) ∧
    (∀ e, ofTokens limit tokens = .error e →
      (∃ i, e = .unmatchedClose i ∧ tokens[i]? = some Token.closing) ∨
      e = .nestingTooDeep limit ∨
      (∃ i, e = .unclosedExpression i ∧ tokens[i]? = some Token.opening)) := by
  refine ⟨Nesting.exists_ofTokens_iff, fun e => Nesting.ofTokens_eq_error_iff, ?_⟩
  intro e h
  have hnames := Nesting.names_of_error? (Nesting.ofTokens_eq_error_iff.mp h)
  rcases hnames with ⟨i, he, hi⟩ | he | ⟨i, he, hi⟩
  · exact .inl ⟨i, he, List.mk_mem_zipIdx_iff_getElem?.mp hi⟩
  · exact .inr (.inl he)
  · rcases hi with hi | hi
    · cases hi
    · exact .inr (.inr ⟨i, he, List.mk_mem_zipIdx_iff_getElem?.mp hi⟩)

/-- Two lists are open where the tokens end: the inner one is reported. -/
theorem Program.ofTokens_walk_unclosed :
    ofTokens 2 ["(", "+", "(", "1"] = .error (.unclosedExpression 2) ∧
      ((∃ i, ReadError.unclosedExpression 2 = .unmatchedClose i ∧
          ["(", "+", "(", "1"][i]? = some Token.closing) ∨
        ReadError.unclosedExpression 2 = .nestingTooDeep 2 ∨
        (∃ i, ReadError.unclosedExpression 2 = .unclosedExpression i ∧
          ["(", "+", "(", "1"][i]? = some Token.opening)) := by
  have h : ofTokens 2 ["(", "+", "(", "1"] = .error (.unclosedExpression 2) :=
    ((ofTokens_walk 2 ["(", "+", "(", "1"]).2.1 _).mpr (by decide)
  exact ⟨h, (ofTokens_walk 2 ["(", "+", "(", "1"]).2.2 _ h⟩

end PrefixCalc
