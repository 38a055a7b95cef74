import PrefixCalc.Proofs.Atom.Readable
import PrefixCalc.Proofs.Sexp.Tokens
import PrefixCalc.Proofs.Token.Invariant
import PrefixCalc.Proofs.Token.Joining

/-!
# PrefixCalc.Proofs.Sexp.RoundTrip

Programs that are read back from their own text, and what is lost when a text is read as a program:
the gaps between its tokens, and nothing else.

* `ofText_text`: the text of an S-expression is scanned into the tokens of the S-expression,
  provided that the text of each atom is a token.
* `ofText_text_iff`: a program is read back from its text exactly if its atoms are readable and
  it is within the limit, and these are also the programs that some text is read as.
* `eq_of_tokens`, `eq_of_text`: a readable program is told by its tokens, and by its text.
* `text_keeps_tokens`: so the text of the program that was read has the tokens of the text it was
  read from.
-/

namespace PrefixCalc
namespace Sexp

/-! ## The text of an S-expression has its tokens -/

theorem ofText_intercalate {items : List Sexp}
    (h : ∀ x ∈ items, Token.ofText x.text = .ok x.tokens) :
    Token.ofText (" ".intercalate (items.map text)) = .ok (tokensAll items) := by
  induction items with
  | nil => rfl
  | cons x rest ih =>
    obtain ⟨hx, hrest⟩ := List.forall_mem_cons.mp h
    cases rest with
    | nil => simpa [tokensAll] using hx
    | cons y rest =>
      have hblank : isBlank ' ' = true := by decide
      have hjoined := ofText_delimiter hx (.inl hblank) (" ".intercalate ((y :: rest).map text))
      have htokens : tokensAll (x :: y :: rest) = x.tokens ++ tokensAll (y :: rest) := rfl
      rw [ih hrest] at hjoined
      rw [List.map_cons, List.map_cons, String.intercalate_cons_cons, ← List.map_cons, htokens]
      simpa [delimiterTokens, hblank] using hjoined

theorem ofText_text {x : Sexp} (h : ∀ leaf ∈ x.leaves, IsToken leaf.text.toList) :
    Token.ofText x.text = .ok x.tokens := by
  induction x with
  | atom leaf => exact ofText_token (h leaf (List.mem_singleton_self leaf))
  | list items ih =>
    have hitems : Token.ofText (" ".intercalate (items.map text)) = .ok (tokensAll items) :=
      ofText_intercalate fun x hx =>
        ih x hx fun leaf hleaf => h leaf (mem_leavesAll_iff.mpr ⟨x, hx, hleaf⟩)
    have htext : (list items).text = "" ++ String.singleton '(' ++
        (" ".intercalate (items.map text) ++ String.singleton ')' ++ "") := by
      rw [text, texts_eq_map, String.empty_append, String.append_empty, String.append_assoc]
      rfl
    have hempty : Token.ofText "" = .ok [] := rfl
    rw [htext, ofText_delimiter hempty (.inr (.inl rfl)),
      ofText_delimiter hitems (.inr (.inr rfl)), hempty]
    simp [delimiterTokens, tokens, isBlank_open, isBlank_close, Token.opening, Token.closing]

/-- The text of each atom is one of the tokens. -/
theorem text_mem_tokens {x : Sexp} {leaf : Atom} (h : leaf ∈ x.leaves) : leaf.text ∈ x.tokens := by
  induction x with
  | atom leaf' =>
    rw [List.mem_singleton.mp h]
    exact List.mem_singleton_self _
  | list items ih =>
    obtain ⟨x, hx, hleaf⟩ := mem_leavesAll_iff.mp h
    have hmem : leaf.text ∈ tokensAll items := by
      rw [tokensAll_eq_flatMap]
      exact List.mem_flatMap.mpr ⟨x, hx, ih x hx hleaf⟩
    simp [tokens, hmem]

end Sexp

namespace Program

theorem readable_of_ofText {limit : Nat} {text : String} {program : Program}
    (h : ofText limit text = .ok program) : program.depth ≤ limit ∧ program.Readable := by
  obtain ⟨⟨hdepth, hleaves⟩, htokens⟩ := ofText_iff_fits.mp h
  refine ⟨hdepth, fun leaf hleaf => readable_iff.mpr ⟨hleaves leaf hleaf, ?_⟩⟩
  obtain ⟨x, hx, hmem⟩ := Sexp.mem_leavesAll_iff.mp hleaf
  apply isToken_of_ofText htokens
  rw [Program.tokens, Sexp.tokensAll_eq_flatMap]
  exact List.mem_flatMap.mpr ⟨x, hx, Sexp.text_mem_tokens hmem⟩

theorem ofText_text {program : Program} (hr : program.Readable) :
    Token.ofText program.text = .ok program.tokens := by
  refine Sexp.ofText_intercalate fun x hx => Sexp.ofText_text fun leaf hleaf => ?_
  exact (readable_iff.mp (hr leaf (Sexp.mem_leavesAll_iff.mpr ⟨x, hx, hleaf⟩))).2

theorem fits_of_readable {limit : Nat} {program : Program} (hdepth : program.depth ≤ limit)
    (hr : program.Readable) : Sexp.Fits limit 0 program :=
  ⟨hdepth, fun leaf hleaf => (readable_iff.mp (hr leaf hleaf)).1⟩

theorem ofText_of_readable {limit : Nat} {program : Program} (hdepth : program.depth ≤ limit)
    (hr : program.Readable) : ofText limit program.text = .ok program :=
  ofText_iff_fits.mpr ⟨fits_of_readable hdepth hr, ofText_text hr⟩

/-- A program is read back from its own text exactly if it stays within the limit and all of its
atoms are readable. Every program that is read from some text is of this sort. -/
theorem ofText_text_iff (limit : Nat) (program : Program) :
    (ofText limit program.text = .ok program ↔ program.depth ≤ limit ∧ program.Readable) ∧
    ((∃ text, ofText limit text = .ok program) ↔ ofText limit program.text = .ok program) := by
  refine ⟨⟨readable_of_ofText, fun h => ofText_of_readable h.1 h.2⟩, ?_, fun h => ⟨_, h⟩⟩
  rintro ⟨text, h⟩
  obtain ⟨hdepth, hr⟩ := readable_of_ofText h
  exact ofText_of_readable hdepth hr

/-- A name with the text of an operator is not read back as a name. -/
example : ofText 1 (text [.list [.atom (.sym (.name "+"))]]) =
    .ok [.list [.atom (.sym (.operator .add))]] :=
  ofText_iff_fits.mpr ⟨by decide, rfl⟩

/-! ## Spacing -/

section
variable {p q : Program}

theorem eq_of_tokens (hp : p.Readable) (hq : q.Readable) (h : p.tokens = q.tokens) : p = q := by
  -- Both are read from these tokens, under a limit that is high enough for both.
  have hp' : ofTokens (max p.depth q.depth) q.tokens = .ok p :=
    ofTokens_iff_fits.mpr ⟨fits_of_readable (Nat.le_max_left ..) hp, h.symm⟩
  have hq' : ofTokens (max p.depth q.depth) q.tokens = .ok q :=
    ofTokens_iff_fits.mpr ⟨fits_of_readable (Nat.le_max_right ..) hq, rfl⟩
  exact Except.ok.inj (hp'.symm.trans hq')

theorem eq_of_text (hp : p.Readable) (hq : q.Readable) (h : p.text = q.text) : p = q := by
  have hp' := ofText_text hp
  rw [h, ofText_text hq] at hp'
  exact eq_of_tokens hp hq (Except.ok.inj hp').symm

end

/-- The text of a program that was read from some text has the same tokens as that text, so that only
the gaps between them are not kept. Of two texts that are read, the programs are the same exactly if
the tokens are, and exactly if the texts of the programs are. -/
theorem text_keeps_tokens :
    (∀ (limit : Nat) (text : String) (program : Program), ofText limit text = .ok program →
      ∃ tokens, Token.ofText text = .ok tokens ∧ Token.ofText program.text = .ok tokens) ∧
    (∀ (m n : Nat) (s t : String) (p q : Program), ofText m s = .ok p → ofText n t = .ok q →
      (p = q ↔ Token.ofText s = Token.ofText t) ∧
      (Token.ofText s = Token.ofText t ↔ p.text = q.text)) := by
  constructor
  · intro limit text program h
    exact ⟨program.tokens, (ofText_iff_fits.mp h).2, ofText_text (readable_of_ofText h).2⟩
  · intro m n s t p q hs ht
    have hp : p.Readable := (readable_of_ofText hs).2
    have hq : q.Readable := (readable_of_ofText ht).2
    have htokens : p = q ↔ Token.ofText s = Token.ofText t := by
      rw [(ofText_iff_fits.mp hs).2, (ofText_iff_fits.mp ht).2, Except.ok.injEq]
      exact ⟨congrArg tokens, eq_of_tokens hp hq⟩
    have htext : p = q ↔ p.text = q.text := ⟨congrArg text, eq_of_text hp hq⟩
    exact ⟨htokens, htokens.symm.trans htext⟩

/-- Two texts of one program, with a literal at the end of a word that holds a parenthesis and a
blank. -/
theorem text_keeps_tokens_literal :
    ∃ p : Program, ofText 2 "(b\"( \"()\n7)" = .ok p ∧ ofText 9 " ( b\"( \" ( )\t7 ) " = .ok p ∧
      Token.ofText "(b\"( \"()\n7)" = Token.ofText " ( b\"( \" ( )\t7 ) " ∧
      Token.ofText p.text = .ok ["(", "b\"( \"", "(", ")", "7", ")"] := by
  let p : Program := [.list [.atom (.sym (.name "b\"( \"")), .list [], .atom (.int 7)]]
  have hs : ofText 2 "(b\"( \"()\n7)" = .ok p := ofText_iff_fits.mpr ⟨by decide, rfl⟩
  have ht : ofText 9 " ( b\"( \" ( )\t7 ) " = .ok p := ofText_iff_fits.mpr ⟨by decide, rfl⟩
  have hlist : Token.ofText "(b\"( \"()\n7)" = .ok ["(", "b\"( \"", "(", ")", "7", ")"] := rfl
  obtain ⟨hkeeps, hsame⟩ := text_keeps_tokens
  obtain ⟨tokens, htokens, hp⟩ := hkeeps _ _ _ hs
  exact ⟨p, hs, ht, (hsame _ _ _ _ _ _ hs ht).1.mp rfl, hp.trans (htokens.symm.trans hlist)⟩

end Program
end PrefixCalc
