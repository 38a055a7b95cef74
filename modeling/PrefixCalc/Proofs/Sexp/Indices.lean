import PrefixCalc.Proofs.Sexp.Tokens
import PrefixCalc.Sexp.Reading

/-!
# PrefixCalc.Proofs.Sexp.Indices

Reading goes from index to index, and sees nothing but the tokens that it uses.

* `readAt_eq_ok_iff`: what is read at an index is what its tokens, which stand there, are the tokens of.
* `readAt_eq`, `readItemsAt_eq`, `readAllAt_eq`: reading said with indices only. A sequence is read by
  going on behind the last token of each S-expression.
* `readAt_progress`: every step goes on, stays within the tokens and depends on its own tokens only.
-/

namespace PrefixCalc
namespace Sexp

variable {limit depth i last : Nat} {tokens : List Token} {x : Sexp}

theorem map_fst_drop (tokens : List Token) (i : Nat) :
    (tokens.zipIdx.drop i).map Prod.fst = tokens.drop i := by
  rw [List.map_drop, List.zipIdx_map_fst]

theorem length_tokens_pos (x : Sexp) : 0 < x.tokens.length := by
  cases x with
  | atom leaf => simp [Sexp.tokens]
  | list items => simp [Sexp.tokens]

/-- What is left behind some of the places from `i` on. -/
theorem rest_eq_drop {front rest : List Place} (h : tokens.zipIdx.drop i = front ++ rest)
    (hpos : 0 < front.length) :
    rest = tokens.zipIdx.drop (i + front.length) ∧
      i + front.length + rest.length = tokens.length := by
  constructor
  · rw [← List.drop_drop, h, List.drop_left]
  · have hlen := congrArg List.length h
    rw [List.length_drop, List.length_zipIdx, List.length_append] at hlen
    omega

/-- A success at an index: what is left are the places behind the last token. -/
theorem readAt_of_read {token : Token} {index : Nat} {rest : List Place}
    {r : Parsed Sexp rest.length} (hplaces : tokens.zipIdx.drop i = (token, index) :: rest)
    (h : read limit depth token index rest = .ok r) :
    ∃ last, readAt limit depth tokens i = .ok (r.value, last) ∧
      last + 1 = i + r.value.tokens.length ∧ r.rest = tokens.zipIdx.drop (last + 1) := by
  obtain ⟨-, front, hfront, hsplit⟩ := (sound_read limit).1 _ _ _ _ _ h
  have hlen : front.length = r.value.tokens.length := by rw [← hfront, List.length_map]
  have hpos := length_tokens_pos r.value
  obtain ⟨hrest, htotal⟩ := rest_eq_drop (hplaces.trans hsplit) (by omega)
  refine ⟨tokens.length - r.rest.length - 1, ?_, by omega, ?_⟩
  · simp only [readAt, hplaces, h]
    rfl
  · have hlast : tokens.length - r.rest.length - 1 + 1 = i + front.length := by omega
    rw [hlast, ← hrest]

/-- An S-expression is read at an index exactly if its tokens stand there and it fits; the last token
that is used is its last one. -/
theorem readAt_eq_ok_iff :
    readAt limit depth tokens i = .ok (x, last) ↔
      Fits limit depth [x] ∧ x.tokens <+: tokens.drop i ∧ last + 1 = i + x.tokens.length := by
  constructor
  · intro h
    have hat := h
    unfold readAt at h
    split at h
    · cases h
    · rename_i token index rest hplaces
      cases hread : read limit depth token index rest with
      | error e =>
        rw [hread] at h
        cases h
      | ok r =>
        obtain ⟨last', hat', hlast, -⟩ := readAt_of_read hplaces hread
        cases hat.symm.trans hat'
        obtain ⟨hfits, front, hfront, hsplit⟩ := (sound_read limit).1 _ _ _ _ _ hread
        refine ⟨hfits, ⟨r.rest.map Prod.fst, ?_⟩, hlast⟩
        rw [← map_fst_drop, hplaces, hsplit, List.map_append, hfront]
  · rintro ⟨hfits, ⟨back, hback⟩, hlast⟩
    rw [← map_fst_drop] at hback
    obtain ⟨front, places, hsplit, hfront, -⟩ := List.map_eq_append_iff.mp hback.symm
    obtain ⟨token, tokens', htokens, -⟩ := exists_tokens_eq_cons hfits
    obtain ⟨index, front', rfl, -⟩ := exists_place (hfront.trans htokens)
    obtain ⟨hle, hread⟩ := complete_read limit x depth token index (front' ++ places)
      ((token, index) :: front') places hfits hfront rfl
    obtain ⟨last', hat, hlast', -⟩ := readAt_of_read hsplit hread
    have heq : last' = last := Nat.succ.inj (hlast'.trans hlast.symm)
    rw [hat, heq]

/-! ## Progress -/

/-- An S-expression stands between the index at which it is read and that of its last token. -/
theorem le_last_of_readAt (h : readAt limit depth tokens i = .ok (x, last)) :
    i ≤ last ∧ last < tokens.length := by
  obtain ⟨-, hprefix, hlast⟩ := readAt_eq_ok_iff.mp h
  have hpos := length_tokens_pos x
  have hle := hprefix.length_le
  rw [List.length_drop] at hle
  omega

/-- Only the tokens from `i` to `last` count: where other tokens have these, at whatever index, the
same is read. -/
theorem readAt_of_agree {others : List Token} {j : Nat}
    (h : readAt limit depth tokens i = .ok (x, last))
    (hagree : ∀ k, i + k ≤ last → others[j + k]? = tokens[i + k]?) :
    readAt limit depth others j = .ok (x, j + (last - i)) := by
  obtain ⟨hfits, hprefix, hlast⟩ := readAt_eq_ok_iff.mp h
  have hpos := length_tokens_pos x
  refine readAt_eq_ok_iff.mpr ⟨hfits, ?_, by omega⟩
  rw [List.prefix_iff_getElem?] at hprefix ⊢
  intro k hk
  rw [List.getElem?_drop, hagree k (by omega), ← List.getElem?_drop]
  exact hprefix k hk

/-- No sequence of S-expressions goes on for ever. -/
theorem resumes_wellFounded : WellFounded (Resumes limit depth tokens) := by
  refine Subrelation.wf (r := fun j i => tokens.length - j < tokens.length - i) ?_
    (measure fun i => tokens.length - i).wf
  rintro j i ⟨x, last, h, rfl⟩
  obtain ⟨hle, hlt⟩ := le_last_of_readAt h
  omega

/-! ## Going on -/

theorem drop_of_getElem? {token : Token} (h : tokens[i]? = some token) :
    tokens.zipIdx.drop i = (token, i) :: tokens.zipIdx.drop (i + 1) := by
  obtain ⟨hlt, rfl⟩ := List.getElem?_eq_some_iff.mp h
  rw [List.drop_eq_getElem_cons (by simpa using hlt), List.getElem_zipIdx, Nat.zero_add]

theorem drop_of_getElem?_none (h : tokens[i]? = none) : tokens.zipIdx.drop i = [] := by
  have hle := List.getElem?_eq_none_iff.mp h
  exact List.drop_eq_nil_of_le (by simpa using hle)

/-- A failure at an index. -/
theorem readAt_of_error {token : Token} {index : Nat} {rest : List Place} {e : ReadError}
    (hplaces : tokens.zipIdx.drop i = (token, index) :: rest)
    (h : read limit depth token index rest = .error e) : readAt limit depth tokens i = .error e := by
  simp only [readAt, hplaces, h]
  rfl

/-- A program goes on behind the last token of each S-expression, up to the end of the tokens. -/
theorem readAllAt_eq (limit : Nat) (tokens : List Token) (i : Nat) :
    readAllAt limit tokens i =
      match tokens[i]? with
      | none => .ok []
      | some _ =>
        match readAt limit 0 tokens i with
        | .error e => .error e
        | .ok (x, last) =>
          match readAllAt limit tokens (last + 1) with
          | .error e => .error e
          | .ok items => .ok (x :: items) := by
  cases ht : tokens[i]? with
  | none => rw [readAllAt, drop_of_getElem?_none ht, readAll]
  | some token =>
    have hplaces := drop_of_getElem? ht
    rw [readAllAt, hplaces, readAll]
    cases hread : read limit 0 token i (tokens.zipIdx.drop (i + 1)) with
    | error e => simp only [readAt_of_error hplaces hread]
    | ok r =>
      obtain ⟨x, rest, hle⟩ := r
      obtain ⟨last, hat, -, rfl⟩ := readAt_of_read hplaces hread
      cases hrest : readAll limit (tokens.zipIdx.drop (last + 1)) with
      | error e => simp only [hat, readAllAt, hrest]
      | ok items => simp only [hat, readAllAt, hrest]

/-- A list goes on behind the last token of each item, up to the parenthesis that closes it. -/
theorem readItemsAt_eq (limit depth opened : Nat) (tokens : List Token) (i : Nat) :
    readItemsAt limit depth opened tokens i =
      match tokens[i]? with
      | none => .error (.unclosedExpression opened)
      | some token =>
        if token = Token.closing then .ok ([], i)
        else
          match readAt limit depth tokens i with
          | .error e => .error e
          | .ok (x, last) =>
            match readItemsAt limit depth opened tokens (last + 1) with
            | .error e => .error e
            | .ok (items, close) => .ok (x :: items, close) := by
  cases ht : tokens[i]? with
  | none =>
    rw [readItemsAt, drop_of_getElem?_none ht, readItems]
    rfl
  | some token =>
    have hplaces := drop_of_getElem? ht
    rw [readItemsAt, hplaces, readItems]
    by_cases hc : token = Token.closing
    · obtain ⟨hlt, -⟩ := List.getElem?_eq_some_iff.mp ht
      simp only [hc, if_true, Except.map, Parsed.upTo, List.length_drop, List.length_zipIdx]
      congr 2
      omega
    · cases hread : read limit depth token i (tokens.zipIdx.drop (i + 1)) with
      | error e => simp only [readAt_of_error hplaces hread, if_neg hc, Except.map]
      | ok r =>
        obtain ⟨x, rest, hle⟩ := r
        obtain ⟨last, hat, -, rfl⟩ := readAt_of_read hplaces hread
        simp only [hat, if_neg hc, readItemsAt]
        cases readItems limit depth opened (tokens.zipIdx.drop (last + 1)) with
        | error e => rfl
        | ok r => rfl

/-- What is read at an index is told by its token, and for a list by the items behind it. -/
theorem readAt_eq (limit depth : Nat) (tokens : List Token) (i : Nat) :
    readAt limit depth tokens i =
      match tokens[i]? with
      | none => .error (.unclosedExpression i)
      | some token =>
        if token = Token.opening then
          if limit ≤ depth then .error (.nestingTooDeep limit)
          else
            match readItemsAt limit (depth + 1) i tokens (i + 1) with
            | .error e => .error e
            | .ok (items, close) => .ok (.list items, close)
        else if token = Token.closing then .error (.unmatchedClose i)
        else
          match Atom.ofToken token with
          | .error e => .error (.literal e)
          | .ok leaf => .ok (.atom leaf, i) := by
  cases ht : tokens[i]? with
  | none => rw [readAt, drop_of_getElem?_none ht]
  | some token =>
    obtain ⟨hlt, -⟩ := List.getElem?_eq_some_iff.mp ht
    simp only [readAt, drop_of_getElem? ht, read, readItemsAt]
    split
    · split
      · rfl
      · cases readItems limit (depth + 1) i (tokens.zipIdx.drop (i + 1)) with
        | error e => rfl
        | ok r => rfl
    · split
      · rfl
      · cases Atom.ofToken token with
        | error e => rfl
        | ok leaf =>
          simp only [Except.map, Parsed.upTo, List.length_drop, List.length_zipIdx]
          congr 2
          omega

theorem readAllAt_of_readAt (h : readAt limit 0 tokens i = .ok (x, last)) :
    readAllAt limit tokens i = (readAllAt limit tokens (last + 1)).map (x :: ·) := by
  obtain ⟨hle, hlt⟩ := le_last_of_readAt h
  rw [readAllAt_eq, List.getElem?_eq_getElem (by omega)]
  simp only [h]
  cases readAllAt limit tokens (last + 1) with
  | error e => rfl
  | ok items => rfl

theorem readItemsAt_of_readAt {opened : Nat} (h : readAt limit depth tokens i = .ok (x, last)) :
    readItemsAt limit depth opened tokens i =
      (readItemsAt limit depth opened tokens (last + 1)).map fun r => (x :: r.1, r.2) := by
  have hat := h
  rw [readAt_eq] at h
  rw [readItemsAt_eq]
  cases ht : tokens[i]? with
  | none => simp [ht] at h
  | some token =>
    have hc : token ≠ Token.closing := by
      rintro rfl
      simp [ht, Token.closing, Token.opening] at h
    simp only [if_neg hc, hat]
    cases readItemsAt limit depth opened tokens (last + 1) with
    | error e => rfl
    | ok r => rfl

/-- An S-expression that is read at an index uses tokens up to a last one, at that index or behind
it, and these alone: among other tokens they are read in the same way, wherever they stand. The items
of a program and those of a list are read by going on right behind that last token, and this comes to
an end. -/
theorem readAt_progress (limit depth : Nat) (tokens : List Token) :
    (∀ i x last, readAt limit depth tokens i = .ok (x, last) →
      i ≤ last ∧ last < tokens.length ∧
      ∀ (others : List Token) (j : Nat),
        (∀ k, i + k ≤ last → others[j + k]? = tokens[i + k]?) →
          readAt limit depth others j = .ok (x, j + (last - i))) ∧
    Program.ofTokens limit tokens = readAllAt limit tokens 0 ∧
    (∀ i x last, readAt limit 0 tokens i = .ok (x, last) →
      readAllAt limit tokens i = (readAllAt limit tokens (last + 1)).map (x :: ·)) ∧
    (∀ i x last, readAt limit depth tokens i = .ok (x, last) →
      ∀ opened, readItemsAt limit depth opened tokens i =
        (readItemsAt limit depth opened tokens (last + 1)).map fun r => (x :: r.1, r.2)) ∧
    WellFounded (Resumes limit depth tokens) := by
  refine ⟨?_, rfl, fun _ _ _ => readAllAt_of_readAt, fun _ _ _ h _ => readItemsAt_of_readAt h,
    resumes_wellFounded⟩
  intro i x last h
  obtain ⟨hle, hlt⟩ := le_last_of_readAt h
  exact ⟨hle, hlt, fun _ _ hagree => readAt_of_agree h hagree⟩

/-- A list between two parentheses that do not match, and the same list at the start. -/
theorem readAt_progress_between :
    readAt 3 2 [")", "(", "f", "1", ")", "("] 1 =
        .ok (.list [.atom (.sym (.name "f")), .atom (.int 1)], 4) ∧
      readAt 3 2 ["(", "f", "1", ")", ")"] 0 =
        .ok (.list [.atom (.sym (.name "f")), .atom (.int 1)], 3) := by
  have h : readAt 3 2 [")", "(", "f", "1", ")", "("] 1 =
      .ok (.list [.atom (.sym (.name "f")), .atom (.int 1)], 4) := by
    exact readAt_eq_ok_iff.mpr ⟨by decide, by decide, by decide⟩
  obtain ⟨-, -, hlocal⟩ := (readAt_progress 3 2 _).1 _ _ _ h
  have hagree : ∀ k < 4, ["(", "f", "1", ")", ")"][0 + k]? =
      [")", "(", "f", "1", ")", "("][1 + k]? := by decide
  exact ⟨h, hlocal ["(", "f", "1", ")", ")"] 0 fun k hk => hagree k (by omega)⟩

end Sexp
end PrefixCalc
