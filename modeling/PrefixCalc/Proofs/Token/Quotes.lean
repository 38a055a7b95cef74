import PrefixCalc.Proofs.Token.Steps
import PrefixCalc.Token.Grammar

/-!
# PrefixCalc.Proofs.Token.Quotes

Where a text has no tokens. The scanner gets to the end of a text unless a quote has no partner on
its line, and a walk that sees nothing but quotes and newlines finds that quote.

* `ofText_eq_error_iff`: the scanner fails where the walk does, by a step lemma
  (`advance_unclosed`) and a run lemma (`read_unclosed`).
* `firstBroken?_eq_unclosed?`: the walk finds the first quote of the first broken pair.
* `unclosed?_replace`: what the walk does not look at.
-/

namespace PrefixCalc
namespace Quotes

/-- The first quote that has no partner on its line: `opened`, which stands in front of the
characters, or one of these, which are counted from `index` on. -/
def unclosed? : (opened : Option Nat) → (index : Nat) → List Char → Option Nat
  | opened, _, [] => opened
  | none, index, c :: cs =>
    if c = '"' then unclosed? (some index) (index + 1) cs else unclosed? none (index + 1) cs
  | some q, index, c :: cs =>
    if c = '"' then unclosed? none (index + 1) cs
    else if c = '\n' then some q
    else unclosed? (some q) (index + 1) cs

section
variable {q index : Nat} {c : Char} {cs : List Char}

theorem unclosed?_open :
    unclosed? none index ('"' :: cs) = unclosed? (some index) (index + 1) cs := by
  simp [unclosed?]

theorem unclosed?_close : unclosed? (some q) index ('"' :: cs) = unclosed? none (index + 1) cs := by
  simp [unclosed?]

theorem unclosed?_newline : unclosed? (some q) index ('\n' :: cs) = some q := by
  simp [unclosed?]

theorem unclosed?_outside (hc : c ≠ '"') :
    unclosed? none index (c :: cs) = unclosed? none (index + 1) cs := by
  simp [unclosed?, hc]

theorem unclosed?_content (hc : isContent c = true) :
    unclosed? (some q) index (c :: cs) = unclosed? (some q) (index + 1) cs := by
  obtain ⟨hq, hn⟩ := isContent_iff.mp hc
  simp [unclosed?, hq, hn]

end

end Quotes

/-! ## The scanner fails where the walk does -/

def Mode.quote? : Mode → Option Nat
  | .quoted _ quote => some quote
  | _ => none

theorem Mode.quote?_unquoted {mode : Mode} (h : mode.Unquoted) : mode.quote? = none := by
  cases mode with
  | quoted token quote => exact h.elim
  | _ => rfl

namespace Scanner
open Quotes

/-- The walk over `cs` from where the scanner stands. -/
def unclosed? (s : Scanner) (cs : List Char) : Option Nat :=
  Quotes.unclosed? s.mode.quote? s.position cs

theorem advance_unclosed (s : Scanner) (c : Char) (cs : List Char) :
    match s.advance c with
    | .ok s' => s.unclosed? (c :: cs) = s'.unclosed? cs
    | .error (.unclosedString q) => s.unclosed? (c :: cs) = some q := by
  have hmoves := s.moves_advance c
  unfold unclosed?
  generalize s.advance c = r at hmoves ⊢
  cases hmoves with
  | blank hm hc =>
    rw [Mode.quote?_unquoted hm]
    exact unclosed?_outside (by rintro rfl; simp [isBlank_quote] at hc)
  | paren hm hc =>
    rw [Mode.quote?_unquoted hm]
    exact unclosed?_outside (by rcases hc with rfl | rfl <;> decide)
  | opening hm =>
    rw [Mode.quote?_unquoted hm]
    exact unclosed?_open
  | plain hm hc =>
    rw [Mode.quote?_unquoted hm]
    exact unclosed?_outside (isPlain_iff.mp hc).2.2.2
  | closing hm =>
    rw [hm]
    exact unclosed?_close
  | newline hm =>
    rw [hm]
    exact unclosed?_newline
  | content hm hc =>
    rw [hm]
    exact unclosed?_content hc

theorem read_unclosed (s : Scanner) (cs : List Char) :
    match s.read cs with
    | .ok s' => s.unclosed? cs = s'.mode.quote?
    | .error (.unclosedString q) => s.unclosed? cs = some q := by
  induction cs generalizing s with
  | nil => simp [read, unclosed?, Quotes.unclosed?]
  | cons c cs ih =>
    have ha := advance_unclosed s c cs
    simp only [read]
    cases hs : s.advance c with
    | error e => simpa only [hs] using ha
    | ok s' =>
      simp only [hs] at ha
      rw [ha]
      exact ih s'

theorem finish_eq_error_iff {s : Scanner} {q : Nat} :
    s.finish = .error (.unclosedString q) ↔ s.mode.quote? = some q := by
  cases hm : s.mode <;> simp [finish, hm, Mode.quote?]

end Scanner

theorem ofText_eq_error_iff {text : String} {q : Nat} :
    Token.ofText text = .error (.unclosedString q) ↔
      Quotes.unclosed? none 0 text.toList = some q := by
  have hr := Scanner.read_unclosed .initial text.toList
  have hi : Scanner.initial.unclosed? text.toList = Quotes.unclosed? none 0 text.toList := rfl
  rw [← hi]
  simp only [Token.ofText, Lexeme.ofText]
  cases hs : Scanner.initial.read text.toList with
  | error e =>
    obtain ⟨q'⟩ := e
    simp only [hs] at hr
    simp [hr]
  | ok s =>
    simp only [hs] at hr
    rw [hr, ← Scanner.finish_eq_error_iff]
    cases hf : s.finish with
    | error e => simp [hf]
    | ok lexemes => simp [hf]

/-! ## The walk finds the first broken pair -/

namespace Quotes

/-- The quotes among characters the first of which has this index. -/
def positionsFrom (index : Nat) (cs : List Char) : List Nat :=
  ((cs.zipIdx index).filter fun place => place.1 = '"').map (·.2)

theorem positionsFrom_quote {index : Nat} {cs : List Char} :
    positionsFrom index ('"' :: cs) = index :: positionsFrom (index + 1) cs := by
  simp [positionsFrom]

theorem positionsFrom_other {index : Nat} {c : Char} {cs : List Char} (hc : c ≠ '"') :
    positionsFrom index (c :: cs) = positionsFrom (index + 1) cs := by
  simp [positionsFrom, hc]

theorem le_of_mem_positionsFrom {index q : Nat} {cs : List Char}
    (h : q ∈ positionsFrom index cs) : index ≤ q := by
  simp only [positionsFrom, List.mem_map, List.mem_filter] at h
  obtain ⟨⟨c, i⟩, ⟨hmem, -⟩, rfl⟩ := h
  exact List.le_snd_of_mem_zipIdx hmem

/-- The first quote of the first broken pair among quotes of a text. -/
def firstBrokenOf? (text : List Char) (quotes : List Nat) : Option Nat :=
  ((pairs quotes).find? (isBroken text)).map (·.1)

theorem firstBrokenOf?_whole {text : List Char} {q q' : Nat} {quotes : List Nat}
    (h : '\n' ∉ (text.take q').drop q) :
    firstBrokenOf? text (q :: q' :: quotes) = firstBrokenOf? text quotes := by
  simp [firstBrokenOf?, pairs, isBroken, h]

theorem firstBrokenOf?_broken {text : List Char} {q : Nat} {quotes : List Nat}
    (h : ∀ q' ∈ quotes, '\n' ∈ (text.take q').drop q) :
    firstBrokenOf? text (q :: quotes) = some q := by
  cases quotes with
  | nil => rfl
  | cons q' quotes =>
    have hq := h q' (List.mem_cons_self ..)
    simp [firstBrokenOf?, pairs, isBroken, hq]

/-- The open quote, if there is one, stands in the front, and no newline stands behind it there. -/
def IsOpen (front : List Char) : Option Nat → Prop
  | none => True
  | some q => q ≤ front.length ∧ '\n' ∉ front.drop q

theorem isOpen_quote {front : List Char} : IsOpen (front ++ ['"']) (some front.length) := by
  simp [IsOpen]

theorem IsOpen.content {q : Nat} {front : List Char} {c : Char} (h : IsOpen front (some q))
    (hc : isContent c = true) : IsOpen (front ++ [c]) (some q) := by
  obtain ⟨hq, hn⟩ := h
  have hcn := (isContent_iff.mp hc).2
  refine ⟨?_, ?_⟩
  · rw [List.length_append]
    omega
  · rw [List.drop_append_of_le_length hq]
    simp [hn, Ne.symm hcn]

theorem unclosed?_eq_firstBrokenOf? (cs front : List Char) (opened : Option Nat)
    (h : IsOpen front opened) :
    unclosed? opened front.length cs =
      firstBrokenOf? (front ++ cs) (opened.toList ++ positionsFrom front.length cs) := by
  -- No newline stands behind the open quote so far, so its pair is whole if a quote comes next and
  -- broken if a newline does, wherever its partner is.
  induction cs generalizing front opened with
  | nil => cases opened <;> rfl
  | cons c cs ih =>
    have ih' := ih (front ++ [c])
    rw [List.append_assoc, List.singleton_append, List.length_append, List.length_singleton] at ih'
    cases opened with
    | none =>
      by_cases hc : c = '"'
      · subst hc
        rw [unclosed?_open, positionsFrom_quote, ih' (some front.length) isOpen_quote]
        rfl
      · rw [unclosed?_outside hc, positionsFrom_other hc, ih' none trivial]
    | some q =>
      rcases content_cases c with rfl | rfl | hc
      · have htake : '\n' ∉ ((front ++ '"' :: cs).take front.length).drop q := by
          rw [List.take_left]
          exact h.2
        rw [unclosed?_close, positionsFrom_quote, ih' none trivial]
        exact (firstBrokenOf?_whole htake).symm
      · rw [unclosed?_newline, positionsFrom_other (by decide)]
        refine (firstBrokenOf?_broken fun q' hq' => ?_).symm
        have hlt : front.length + 1 ≤ q' := le_of_mem_positionsFrom hq'
        refine List.mem_iff_getElem?.mpr ⟨front.length - q, ?_⟩
        have hi : q + (front.length - q) = front.length := Nat.add_sub_of_le h.1
        rw [List.getElem?_drop, hi, List.getElem?_take_of_lt (by omega)]
        simp
      · rw [unclosed?_content hc, positionsFrom_other (isContent_iff.mp hc).1,
          ih' (some q) (h.content hc)]

theorem firstBroken?_eq_unclosed? (cs : List Char) : firstBroken? cs = unclosed? none 0 cs :=
  (unclosed?_eq_firstBrokenOf? cs [] none trivial).symm

/-! ## What does not matter -/

theorem unclosed?_of_not_mem {q index : Nat} {cs : List Char} (h : '"' ∉ cs) :
    unclosed? (some q) index cs = some q := by
  induction cs generalizing index with
  | nil => rfl
  | cons c cs ih =>
    rw [List.mem_cons, not_or] at h
    by_cases hn : c = '\n'
    · rw [hn, unclosed?_newline]
    · rw [unclosed?_content (isContent_iff.mpr ⟨Ne.symm h.1, hn⟩), ih h.2]

theorem unclosed?_replace {c d : Char} (hc : c ≠ '"') (hd : d ≠ '"') {back : List Char}
    (front : List Char) (opened : Option Nat) (index : Nat)
    (h : (c = '\n' ↔ d = '\n') ∨ (opened.toList.length + front.count '"') % 2 = 0 ∨ '"' ∉ back) :
    unclosed? opened index (front ++ c :: back) = unclosed? opened index (front ++ d :: back) := by
  induction front generalizing opened index with
  | nil =>
    rw [List.nil_append, List.nil_append]
    cases opened with
    | none => rw [unclosed?_outside hc, unclosed?_outside hd]
    | some q =>
      rcases h with h | h | h
      · by_cases hn : c = '\n'
        · rw [hn, h.mp hn]
        · have hn' : d ≠ '\n' := fun hd => hn (h.mpr hd)
          rw [unclosed?_content (isContent_iff.mpr ⟨hc, hn⟩),
            unclosed?_content (isContent_iff.mpr ⟨hd, hn'⟩)]
      · simp at h
      · rw [unclosed?_of_not_mem (by simp [Ne.symm hc, h]),
          unclosed?_of_not_mem (by simp [Ne.symm hd, h])]
  | cons a front ih =>
    rw [List.cons_append, List.cons_append]
    by_cases ha : a = '"'
    · subst ha
      rw [List.count_cons_self] at h
      cases opened with
      | none =>
        rw [unclosed?_open, unclosed?_open]
        refine ih _ _ (h.imp_right (Or.imp_left fun heven => ?_))
        rw [Option.toList_none, List.length_nil] at heven
        rw [Option.toList_some, List.length_singleton]
        omega
      | some q =>
        rw [unclosed?_close, unclosed?_close]
        refine ih _ _ (h.imp_right (Or.imp_left fun heven => ?_))
        rw [Option.toList_some, List.length_singleton] at heven
        rw [Option.toList_none, List.length_nil]
        omega
    · rw [List.count_cons_of_ne ha] at h
      cases opened with
      | none => rw [unclosed?_outside ha, unclosed?_outside ha, ih _ _ h]
      | some q =>
        by_cases hn : a = '\n'
        · rw [hn, unclosed?_newline, unclosed?_newline]
        · have hcontent := isContent_iff.mpr ⟨ha, hn⟩
          rw [unclosed?_content hcontent, unclosed?_content hcontent, ih _ _ h]

end Quotes

/-- A text has no tokens exactly if one of its pairs of quotes is broken, and the error names the
first quote of the first of these. Nothing else matters: a character that is no quote may be any
other, and also a newline or none, unless it stands between the quotes of a pair. -/
theorem ofText_unclosed (text : String) :
    (∀ q, Token.ofText text = .error (.unclosedString q) ↔
      Quotes.firstBroken? text.toList = some q) ∧
    (∀ (front back : List Char) (c d : Char), text.toList = front ++ c :: back →
      c ≠ '"' → d ≠ '"' → ((c = '\n' ↔ d = '\n') ∨ front.count '"' % 2 = 0 ∨ '"' ∉ back) →
      ∀ q, Token.ofText text = .error (.unclosedString q) ↔
        Token.ofText (String.ofList (front ++ d :: back)) = .error (.unclosedString q)) := by
  constructor
  · intro q
    rw [ofText_eq_error_iff, Quotes.firstBroken?_eq_unclosed?]
  · intro front back c d ht hc hd h q
    rw [ofText_eq_error_iff, ofText_eq_error_iff, String.toList_ofList, ht]
    have hreplace := Quotes.unclosed?_replace hc hd front none 0 (by simpa using h)
    rw [hreplace]

/-- Behind a whole pair of quotes a newline is no different from a parenthesis. -/
theorem ofText_unclosed_newline :
    Token.ofText "λ\" \"\n\"(" = .error (.unclosedString 5) ∧
      Token.ofText "λ\" \")\"(" = .error (.unclosedString 5) := by
  have h : Token.ofText "λ\" \"\n\"(" = .error (.unclosedString 5) :=
    ((ofText_unclosed "λ\" \"\n\"(").1 5).mpr (by decide)
  exact ⟨h, ((ofText_unclosed "λ\" \"\n\"(").2 ['λ', '"', ' ', '"'] ['"', '('] '\n' ')' rfl
    (by decide) (by decide) (.inr (.inl rfl)) 5).mp h⟩

end PrefixCalc
