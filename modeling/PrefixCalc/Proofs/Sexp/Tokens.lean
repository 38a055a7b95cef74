import PrefixCalc.Sexp.Parts
import PrefixCalc.Sexp.Reading

/-!
# PrefixCalc.Proofs.Sexp.Tokens

Which S-expressions are read from which tokens.

* `sound_read`: what is read has exactly the tokens that are used up, from the first on; it is no
  deeper than the limit allows, and its atoms are what their tokens stand for.
* `complete_read`: such an S-expression is read from its tokens, whatever stands behind them.
* `ofTokens_eq_ok_iff`: both together, for programs.
-/

namespace PrefixCalc
namespace Sexp

/-- What can be read below `depth` open lists: the lists stay within the limit, and the token of
each atom gives this atom back. -/
structure Fits (limit depth : Nat) (items : List Sexp) : Prop where
  depth_le : depthAll items ≤ limit - depth
  restorable : ∀ leaf ∈ leavesAll items, leaf.Restorable

theorem fits_iff {limit depth : Nat} {items : List Sexp} :
    (depthAll items ≤ limit - depth ∧ ∀ leaf ∈ leavesAll items, leaf.Restorable) ↔
      Fits limit depth items :=
  ⟨fun h => ⟨h.1, h.2⟩, fun h => ⟨h.depth_le, h.restorable⟩⟩

instance (limit depth : Nat) (items : List Sexp) : Decidable (Fits limit depth items) :=
  decidable_of_iff _ fits_iff

section
variable {limit depth : Nat} {x : Sexp} {items : List Sexp} {leaf : Atom}

theorem fits_nil : Fits limit depth [] :=
  ⟨Nat.zero_le _, by simp [leavesAll]⟩

theorem fits_cons :
    Fits limit depth (x :: items) ↔ Fits limit depth [x] ∧ Fits limit depth items := by
  constructor
  · rintro ⟨hd, hl⟩
    simp only [depthAll, leavesAll, List.mem_append] at hd hl
    refine ⟨⟨?_, ?_⟩, ⟨by omega, fun a ha => hl a (.inr ha)⟩⟩
    · simp only [depthAll]; omega
    · simp only [leavesAll, List.append_nil]
      exact fun a ha => hl a (.inl ha)
  · rintro ⟨⟨hd, hl⟩, ⟨hd', hl'⟩⟩
    simp only [depthAll, leavesAll, List.append_nil] at hd hl
    refine ⟨?_, ?_⟩
    · simp only [depthAll]; omega
    · intro a ha
      rcases List.mem_append.mp ha with ha | ha
      · exact hl a ha
      · exact hl' a ha

theorem fits_atom : Fits limit depth [.atom leaf] ↔ leaf.Restorable := by
  constructor
  · intro h
    exact h.restorable leaf (by simp [leavesAll, leaves])
  · intro h
    exact ⟨by simp [depthAll, Sexp.depth], by simpa [leavesAll, leaves] using h⟩

theorem fits_list :
    Fits limit depth [.list items] ↔ depth < limit ∧ Fits limit (depth + 1) items := by
  constructor
  · rintro ⟨hd, hl⟩
    simp only [depthAll, Sexp.depth, leavesAll, leaves, List.append_nil] at hd hl
    exact ⟨by omega, ⟨by omega, hl⟩⟩
  · rintro ⟨hlt, ⟨hd, hl⟩⟩
    refine ⟨?_, ?_⟩
    · simp only [depthAll, Sexp.depth]; omega
    · simpa only [leavesAll, leaves, List.append_nil] using hl

end

/-! ## What is read -/

theorem sound_read (limit : Nat) :
    (∀ (depth : Nat) (token : Token) (index : Nat) (rest : List Place),
      ∀ r, read limit depth token index rest = .ok r →
        Fits limit depth [r.value] ∧
        ∃ front, front.map Prod.fst = r.value.tokens ∧ (token, index) :: rest = front ++ r.rest) ∧
    (∀ (depth opened : Nat) (places : List Place),
      ∀ r, readItems limit depth opened places = .ok r →
        Fits limit depth r.value ∧
        ∃ front close, front.map Prod.fst = tokensAll r.value ∧
          places = front ++ (Token.closing, close) :: r.rest) := by
  apply read.mutual_induct limit
  case case1 =>
    intro depth index rest hl r h
    simp [read, hl] at h
  case case2 =>
    intro depth index rest hl e he _ r h
    simp [read, hl, he] at h
  case case3 =>
    intro depth index rest hl items rest' hle he ih r h
    simp only [read, hl, he, if_true, if_false, Except.ok.injEq] at h
    subst h
    obtain ⟨hfits, front, close, hfront, hplaces⟩ := ih _ he
    refine ⟨fits_list.mpr ⟨by omega, hfits⟩,
      (Token.opening, index) :: (front ++ [(Token.closing, close)]), ?_, ?_⟩
    · simp [tokens, hfront]
    · simp [hplaces]
  case case4 =>
    intro depth index rest ho r h
    simp [read, ho] at h
  case case5 =>
    intro depth token index rest ho hc e he r h
    simp [read, ho, hc, he] at h
  case case6 =>
    intro depth token index rest ho hc leaf he r h
    simp only [read, ho, hc, he, if_false, Except.ok.injEq] at h
    subst h
    have ht := Atom.text_of_ofToken he
    have hr : leaf.Restorable := by
      unfold Atom.Restorable
      rw [ht]
      exact ⟨he, ho, hc⟩
    exact ⟨fits_atom.mpr hr, [(token, index)], by simp [tokens, ht], rfl⟩
  case case7 =>
    intro depth opened r h
    simp [readItems] at h
  case case8 =>
    intro depth opened index rest r h
    simp only [readItems, if_true, Except.ok.injEq] at h
    subst h
    exact ⟨fits_nil, [], index, rfl, rfl⟩
  case case9 =>
    intro depth opened token index rest hc e he _ r h
    simp [readItems, hc, he] at h
  case case10 =>
    intro depth opened token index rest hc item rest' hle he e he' _ _ r h
    simp [readItems, hc, he, he'] at h
  case case11 =>
    intro depth opened token index rest hc item rest' hle he items rest'' hle' he' ih ih' r h
    simp only [readItems, hc, he, he', if_false, Except.ok.injEq] at h
    subst h
    obtain ⟨hfits, front, hfront, hplaces⟩ := ih _ he
    obtain ⟨hfits', front', close, hfront', hplaces'⟩ := ih' _ he'
    refine ⟨fits_cons.mpr ⟨hfits, hfits'⟩, front ++ front', close, ?_, ?_⟩
    · simp [tokensAll, hfront, hfront']
    · simp [hplaces, hplaces']

theorem sound_readAll {limit : Nat} {places : List Place} {items : List Sexp}
    (h : readAll limit places = .ok items) :
    Fits limit 0 items ∧ places.map Prod.fst = tokensAll items := by
  fun_induction readAll limit places generalizing items with
  | case1 =>
    cases h
    exact ⟨fits_nil, rfl⟩
  | case2 token index rest e he => cases h
  | case3 token index rest item rest' hle he e he' ih => cases h
  | case4 token index rest item rest' hle he items' he' ih =>
    cases h
    obtain ⟨hfits, front, hfront, hplaces⟩ := (sound_read limit).1 _ _ _ _ _ he
    obtain ⟨hfits', hrest⟩ := ih he'
    refine ⟨fits_cons.mpr ⟨hfits, hfits'⟩, ?_⟩
    simp [hplaces, tokensAll, hfront, hrest]

/-! ## What can be read -/

/-- The S-expression is read from its tokens, and what stands behind them is left. -/
def ReadsBack (limit : Nat) (x : Sexp) : Prop :=
  ∀ (depth : Nat) (token : Token) (index : Nat) (rest front back : List Place),
    Fits limit depth [x] → front.map Prod.fst = x.tokens → (token, index) :: rest = front ++ back →
      ∃ h, read limit depth token index rest = .ok ⟨x, back, h⟩

theorem exists_place {front : List Place} {token : Token} {tokens : List Token}
    (h : front.map Prod.fst = token :: tokens) :
    ∃ index rest, front = (token, index) :: rest ∧ rest.map Prod.fst = tokens := by
  obtain ⟨⟨token', index⟩, rest, rfl, rfl, hrest⟩ := List.map_eq_cons_iff.mp h
  exact ⟨index, rest, rfl, hrest⟩

/-- The tokens of an S-expression start with one that closes no list. -/
theorem exists_tokens_eq_cons {limit depth : Nat} {x : Sexp} (h : Fits limit depth [x]) :
    ∃ token rest, x.tokens = token :: rest ∧ token ≠ Token.closing := by
  cases x with
  | atom leaf => exact ⟨leaf.text, [], rfl, (fits_atom.mp h).2.2⟩
  | list items => exact ⟨Token.opening, _, rfl, by decide⟩

theorem complete_readItems {limit : Nat} {items : List Sexp}
    (hitems : ∀ x ∈ items, ReadsBack limit x) (depth opened close : Nat)
    (front back places : List Place) (hfits : Fits limit depth items)
    (hfront : front.map Prod.fst = tokensAll items)
    (hplaces : places = front ++ (Token.closing, close) :: back) :
    ∃ h, readItems limit depth opened places = .ok ⟨items, back, h⟩ := by
  induction items generalizing front places with
  | nil =>
    obtain rfl := List.map_eq_nil_iff.mp hfront
    subst hplaces
    exact ⟨by simp, by simp [readItems]⟩
  | cons x items ih =>
    obtain ⟨hx, hrest⟩ := fits_cons.mp hfits
    obtain ⟨front₁, front₂, rfl, hfront₁, hfront₂⟩ := List.map_eq_append_iff.mp hfront
    obtain ⟨token, tokens', htokens, hc⟩ := exists_tokens_eq_cons hx
    rw [htokens] at hfront₁
    obtain ⟨index, front₁', rfl, hfront₁'⟩ := exists_place hfront₁
    obtain ⟨rest, rfl⟩ : ∃ rest, places = (token, index) :: rest := ⟨_, hplaces⟩
    obtain ⟨h₁, hread⟩ := hitems x (List.mem_cons_self ..) depth token index rest
      ((token, index) :: front₁') (front₂ ++ (Token.closing, close) :: back) hx
      (by rw [htokens, hfront₁]) (by rw [hplaces, List.append_assoc])
    obtain ⟨h₂, hread'⟩ := ih (fun y hy => hitems y (List.mem_cons_of_mem _ hy)) front₂ _ hrest
      hfront₂ rfl
    refine ⟨by simp only [List.length_cons]; omega, ?_⟩
    simp [readItems, hc, hread, hread']

theorem complete_read (limit : Nat) (x : Sexp) : ReadsBack limit x := by
  induction x with
  | atom leaf =>
    intro depth token index rest front back hfits hfront hplaces
    obtain ⟨index', front', rfl, hnil⟩ := exists_place hfront
    obtain rfl := List.map_eq_nil_iff.mp hnil
    cases hplaces
    obtain ⟨hleaf, ho, hc⟩ := fits_atom.mp hfits
    exact ⟨Nat.le_refl _, by simp [read, ho, hc, hleaf]⟩
  | list items ih =>
    intro depth token index rest front back hfits hfront hplaces
    obtain ⟨hlt, hitems⟩ := fits_list.mp hfits
    obtain ⟨index', front', rfl, hfront'⟩ := exists_place hfront
    obtain ⟨inner, last, rfl, hinner, hlast⟩ := List.map_eq_append_iff.mp hfront'
    obtain ⟨close, last', rfl, hnil⟩ := exists_place hlast
    obtain rfl := List.map_eq_nil_iff.mp hnil
    cases hplaces
    obtain ⟨h, hread⟩ := complete_readItems ih (depth + 1) index close inner back
      (inner ++ [(Token.closing, close)] ++ back) hitems hinner (List.append_assoc ..)
    exact ⟨h, by simp [read, Nat.not_le.mpr hlt, hread]⟩

theorem complete_readAll {limit : Nat} {items : List Sexp} {places : List Place}
    (hfits : Fits limit 0 items) (hplaces : places.map Prod.fst = tokensAll items) :
    readAll limit places = .ok items := by
  induction items generalizing places with
  | nil =>
    obtain rfl := List.map_eq_nil_iff.mp hplaces
    simp [readAll]
  | cons x items ih =>
    obtain ⟨hx, hrest⟩ := fits_cons.mp hfits
    obtain ⟨front, back, rfl, hfront, hback⟩ := List.map_eq_append_iff.mp hplaces
    obtain ⟨token, tokens', htokens, -⟩ := exists_tokens_eq_cons hx
    rw [htokens] at hfront
    obtain ⟨index, front', rfl, hfront'⟩ := exists_place hfront
    obtain ⟨h, hread⟩ := complete_read limit x 0 token index (front' ++ back)
      ((token, index) :: front') back hx (by rw [htokens, hfront]) rfl
    simp [readAll, hread, ih hrest hback]

end Sexp

theorem Program.ofTokens_iff_fits {limit : Nat} {tokens : List Token} {program : Program} :
    ofTokens limit tokens = .ok program ↔ Sexp.Fits limit 0 program ∧ tokens = program.tokens := by
  unfold ofTokens Program.tokens
  constructor
  · intro h
    obtain ⟨hfits, htokens⟩ := Sexp.sound_readAll h
    exact ⟨hfits, by rw [← htokens, List.zipIdx_map_fst]⟩
  · rintro ⟨hfits, rfl⟩
    exact Sexp.complete_readAll hfits (List.zipIdx_map_fst ..)

theorem Program.ofText_iff_fits {limit : Nat} {text : String} {program : Program} :
    ofText limit text = .ok program ↔
      Sexp.Fits limit 0 program ∧ Token.ofText text = .ok program.tokens := by
  rw [ofText_eq_ok_iff]
  constructor
  · rintro ⟨tokens, htokens, hp⟩
    obtain ⟨hfits, rfl⟩ := ofTokens_iff_fits.mp hp
    exact ⟨hfits, htokens⟩
  · rintro ⟨hfits, htokens⟩
    exact ⟨program.tokens, htokens, ofTokens_iff_fits.mpr ⟨hfits, rfl⟩⟩

/-- A program is read from its own tokens and from no others, and it is read exactly if it is no
deeper than the limit and the token of each of its atoms stands for that atom. -/
theorem Program.ofTokens_eq_ok_iff {limit : Nat} {tokens : List Token} {program : Program} :
    ofTokens limit tokens = .ok program ↔
      program.tokens = tokens ∧ program.depth ≤ limit ∧
        ∀ leaf ∈ Sexp.leavesAll program,
          Atom.ofToken leaf.text = .ok leaf ∧ leaf.text ≠ "(" ∧ leaf.text ≠ ")" := by
  rw [ofTokens_iff_fits]
  constructor
  · rintro ⟨⟨hd, hl⟩, ht⟩
    exact ⟨ht.symm, hd, hl⟩
  · rintro ⟨ht, hd, hl⟩
    exact ⟨⟨hd, hl⟩, ht.symm⟩

end PrefixCalc
