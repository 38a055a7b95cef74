import PrefixCalc.Atom.Literal
import PrefixCalc.Proofs.Token.Layout
import PrefixCalc.Token.Cutter

/-!
# PrefixCalc.Proofs.Token.Cutter

Tokens are cut out of the source by offsets. The scanner that keeps offsets goes step by step with the
one that keeps texts (`step_ofScanner`, `run_ofScanner`), so what it cuts out is laid out as lexemes
are, and it never asks for a range that the source does not have.

* `Cutter.Sound`: what holds of it after every front part of a source.
* `Cutter.cuts_are_slices`: it does hold, and the lexemes of the source are what was cut out.
-/

namespace PrefixCalc

variable {done front back : String} {l : Lexeme} {s s' : Scanner} {c : Char}

/-- The range is one of the source and not empty, both of its ends are at characters, and the text is
what stands there. -/
structure Cut.IsSlice (cut : Cut) (source : String) : Prop where
  start_lt_stop : cut.start < cut.stop
  stop_le : cut.stop ≤ source.utf8ByteSize
  isValid_start : String.Pos.Raw.IsValid source ⟨cut.start⟩
  isValid_stop : String.Pos.Raw.IsValid source ⟨cut.stop⟩
  slice?_eq : slice? source cut.start cut.stop = some cut.text
  text_ne : cut.text ≠ ""

theorem Lexeme.Ends.slice? (h : l.Ends done front) (back : String) :
    slice? (front ++ back) l.start front.utf8ByteSize = some l.text := by
  rw [h.start_eq, h.front_eq]
  exact slice?_append done l.text back

theorem Lexeme.Ends.isSlice (h : l.Ends done front) (back : String) :
    l.cut.IsSlice (front ++ back) := by
  have hslice : PrefixCalc.slice? (front ++ back) l.cut.start l.cut.stop = some l.text := by
    rw [Lexeme.cut, h.stop_eq]
    exact h.slice? back
  obtain ⟨hstart, hstop, -⟩ := valid_of_slice? hslice
  exact
    { start_lt_stop := h.start_lt_stop
      stop_le := hstop.le_rawEndPos
      isValid_start := hstart
      isValid_stop := hstop
      slice?_eq := hslice
      text_ne := h.text_ne }

namespace Cutter

/-- The scanner, with offsets in place of the text that it is reading. -/
def ofScanner (s : Scanner) : Cutter where
  emitted := s.found.map Lexeme.cut
  pending :=
    match s.mode with
    | .word token => some token.start
    | _ => none
  quoted :=
    match s.mode with
    | .quoted token quote => some (token.start, quote)
    | _ => none

theorem emit_ends (h : l.Ends done front) (back : String) (k : Cutter) :
    k.emit (front ++ back) l.start front.utf8ByteSize =
      .ok { k with emitted := l.cut :: k.emitted } := by
  simp only [emit, h.slice? back, Lexeme.cut, h.stop_eq]

theorem flush_ofScanner (h : s.Stands front) (hm : s.mode.Unquoted) (back : String) :
    (ofScanner s).flush (front ++ back) s.offset =
      .ok { emitted := s.ended.map Lexeme.cut, pending := none, quoted := none } := by
  obtain ⟨hoffset, done, -, hends⟩ := h
  cases hmode : s.mode with
  | gap => simp [flush, ofScanner, hmode, Scanner.ended]
  | word token =>
    rw [hmode] at hends
    have hemit := emit_ends hends back ⟨s.found.map Lexeme.cut, none, none⟩
    simpa [flush, ofScanner, hmode, Scanner.ended, hoffset] using hemit
  | quoted token quote => simp [hmode, Mode.Unquoted] at hm

theorem quoted_ofScanner (hm : s.mode.Unquoted) : (ofScanner s).quoted = none := by
  cases hmode : s.mode with
  | quoted token quote => simp [hmode, Mode.Unquoted] at hm
  | _ => simp [ofScanner, hmode]

theorem getD_pending (hm : s.mode.Unquoted) (c : Char) :
    (ofScanner s).pending.getD s.offset = (s.extended c).start := by
  cases hmode : s.mode with
  | quoted token quote => simp [hmode, Mode.Unquoted] at hm
  | _ => simp [ofScanner, Scanner.extended, hmode]

/-- One step by offsets is one step by texts. -/
theorem step_ofScanner (h : s.Stands front) (c : Char) (back : String) :
    (ofScanner s).step (front.push c ++ back) s.position s.offset c =
      match s.advance c with
      | .error e => .error (.scan e)
      | .ok s' => .ok (ofScanner s') := by
  have hflush (hm : s.mode.Unquoted) :
      (ofScanner s).flush (front.push c ++ back) s.offset =
        .ok { emitted := s.ended.map Lexeme.cut, pending := none, quoted := none } := by
    rw [String.push_eq_append, String.append_assoc]
    exact flush_ofScanner h hm _
  -- A parenthesis or a quote ends a token, and is one byte long.
  have hstop (hc : c.utf8Size = 1) : s.offset + 1 = (front.push c).utf8ByteSize := by
    rw [h.offset_eq, String.utf8ByteSize_push, hc]
  have hmoves := s.moves_advance c
  generalize s.advance c = r at hmoves ⊢
  cases hmoves with
  | blank hm hc =>
    simp only [step, quoted_ofScanner hm, hc, if_true, hflush hm]
    rfl
  | paren hm hc =>
    have hb : isBlank c = false := by rcases hc with rfl | rfl <;> decide
    have hsize : c.utf8Size = 1 := by rcases hc with rfl | rfl <;> rfl
    have hemit := emit_ends (.singleton front c) back ⟨s.ended.map Lexeme.cut, none, none⟩
    simp only [step, quoted_ofScanner hm, hb, hc, if_true, hflush hm, hstop hsize,
      Bool.false_eq_true, if_false]
    rw [h.offset_eq]
    exact hemit
  | opening hm =>
    have hb : isBlank '"' = false := by decide
    have hp : ¬ ('"' = '(' ∨ '"' = ')') := by decide
    simp only [step, quoted_ofScanner hm, hb, hp, if_true, Bool.false_eq_true, if_false,
      getD_pending hm '"']
    rfl
  | plain hm hc =>
    obtain ⟨hb, ho, hcl, hq⟩ := isPlain_iff.mp hc
    simp only [step, quoted_ofScanner hm, hb, ho, hcl, hq, or_self, Bool.false_eq_true, if_false,
      getD_pending hm c]
    rfl
  | @closing token quote hm =>
    have hquoted : (ofScanner s).quoted = some (token.start, quote) := by simp [ofScanner, hm]
    obtain ⟨done, -, hends⟩ := h.extended '"'
    have hemit := emit_ends hends back { ofScanner s with quoted := none }
    rw [Scanner.extended_quoted hm] at hemit
    simp only [step, hquoted, if_true, hstop rfl]
    simpa [ofScanner, hm] using hemit
  | @newline token quote hm =>
    have hquoted : (ofScanner s).quoted = some (token.start, quote) := by simp [ofScanner, hm]
    simp [step, hquoted]
  | @content c token quote hm hc =>
    obtain ⟨hq, hn⟩ := isContent_iff.mp hc
    simp [step, hq, hn, ofScanner, hm]

/-- A run by offsets is a run by texts. -/
theorem run_ofScanner (h : s.Stands front) (cs : List Char) (back : String) :
    (ofScanner s).run (front ++ String.ofList cs ++ back) s.position s.offset cs =
      match s.read cs with
      | .error e => .error (.scan e)
      | .ok s' => .ok (ofScanner s') := by
  induction cs generalizing s front with
  | nil => rfl
  | cons c cs ih =>
    have hsource : front ++ String.ofList (c :: cs) ++ back =
        front.push c ++ (String.ofList cs ++ back) := by
      rw [append_ofList_cons, String.append_assoc]
    simp only [run, Scanner.read, hsource, step_ofScanner h]
    cases ha : s.advance c with
    | error e => rfl
    | ok s' =>
      have hplace := Scanner.place_of_advance ha
      have hrun := ih (h.advance ha)
      rw [hplace.1, hplace.2, String.append_assoc] at hrun
      exact hrun

theorem after_eq (front back : String) :
    after (front ++ back) front =
      match Scanner.initial.read front.toList with
      | .error e => .error (.scan e)
      | .ok s => .ok (ofScanner s) := by
  have hrun := run_ofScanner .initial front.toList back
  rw [String.empty_append, String.ofList_toList] at hrun
  exact hrun

/-- What is cut out of a source are its lexemes. -/
theorem ofSource_eq (source : String) :
    ofSource source =
      match Lexeme.ofText source with
      | .error e => .error (.scan e)
      | .ok lexemes => .ok ⟨lexemes.reverse.map Lexeme.cut, none, none⟩ := by
  have hafter := after_eq source ""
  rw [String.append_empty] at hafter
  simp only [ofSource, hafter, Lexeme.ofText]
  cases hs : Scanner.initial.read source.toList with
  | error e => rfl
  | ok s =>
    have hstands := Scanner.Stands.of_read hs
    rcases s.mode.unquoted_or with hm | ⟨token, quote, hm⟩
    · have hflush := flush_ofScanner hstands hm ""
      rw [String.append_empty, hstands.offset_eq] at hflush
      simp only [finish, quoted_ofScanner hm, hflush, Scanner.finish_unquoted hm,
        List.reverse_reverse]
    · simp [finish, Scanner.finish, ofScanner, hm]

/-! ## What holds after every front part -/

/-- A token is being read that starts there. -/
def IsOpen (k : Cutter) (start : Nat) : Prop :=
  k.pending = some start ∨ ∃ quote, k.quoted = some (start, quote)

/-- What holds after a front part of a source. -/
structure Sound (k : Cutter) (source front : String) : Prop where
  slices : ∀ cut ∈ k.emitted, cut.IsSlice source ∧ cut.stop ≤ front.utf8ByteSize
  increasing : k.emitted.reverse.Pairwise fun earlier later => earlier.stop ≤ later.start
  /-- The token that is being read starts at a character behind all that was cut out. -/
  opened : ∀ start, k.IsOpen start → (∀ cut ∈ k.emitted, cut.stop ≤ start) ∧
    ∃ done c rest, front = String.push done c ++ rest ∧ start = done.utf8ByteSize
  pending_eq_none : k.quoted ≠ none → k.pending = none
  /-- A character in front of the token that is being read was cut out or is a blank. -/
  cover : ∀ done c rest, front = String.push done c ++ rest →
    (∃ cut ∈ k.emitted, cut.start ≤ done.utf8ByteSize ∧ done.utf8ByteSize < cut.stop) ∨
      (∃ start, k.IsOpen start ∧ start ≤ done.utf8ByteSize) ∨ isBlank c = true

theorem isOpen_ofScanner {start : Nat} :
    (ofScanner s).IsOpen start ↔ ∃ token, s.mode.token? = some token ∧ token.start = start := by
  cases hmode : s.mode <;> simp [IsOpen, ofScanner, Mode.token?, hmode]

theorem sound_ofScanner (h : s.Stands front) (back : String) :
    (ofScanner s).Sound (front ++ back) front := by
  constructor
  case slices =>
    intro cut hcut
    obtain ⟨l, hl, rfl⟩ := List.mem_map.mp hcut
    refine ⟨?_, h.stop_le l hl⟩
    obtain ⟨done, upTo, mid, rfl, hplace⟩ := h.place l hl
    rw [String.append_assoc]
    exact hplace.isSlice (mid ++ back)
  case increasing =>
    rw [List.pairwise_reverse]
    exact List.pairwise_map.mpr h.pairwise
  case opened =>
    intro start hopen
    obtain ⟨token, htoken, rfl⟩ := isOpen_ofScanner.mp hopen
    obtain ⟨hbehind, hchar⟩ := h.start_of_token htoken
    refine ⟨?_, hchar⟩
    intro cut hcut
    obtain ⟨l, hl, rfl⟩ := List.mem_map.mp hcut
    exact hbehind l hl
  case pending_eq_none =>
    intro hquoted
    cases hmode : s.mode with
    | quoted token quote => simp [ofScanner, hmode]
    | _ => simp [ofScanner, hmode] at hquoted
  case cover =>
    intro before c rest hfront
    rcases h.cover hfront with ⟨l, hl, hplace⟩ | ⟨token, htoken, hle⟩ | hblank
    · exact .inl ⟨l.cut, List.mem_map_of_mem hl, hplace⟩
    · exact .inr (.inl ⟨token.start, isOpen_ofScanner.mpr ⟨token, htoken, rfl⟩, hle⟩)
    · exact .inr (.inr hblank)

/-- At the end of a source the token that is being read is complete. -/
theorem sound_ended (h : s.Stands front) (hm : s.mode.Unquoted) :
    Sound ⟨s.ended.map Lexeme.cut, none, none⟩ front front := by
  have hend : Scanner.Stands { s with found := s.ended, mode := .gap } front :=
    ⟨h.offset_eq, front, h.ended hm, rfl⟩
  have hsound := sound_ofScanner hend ""
  rw [String.append_empty] at hsound
  exact hsound

end Cutter

/-! ## Quotes -/

namespace Token

theorem isString_iff_bytes {token : Token} :
    token.isString = true ↔ 2 ≤ token.utf8ByteSize ∧ token.toList.head? = some '"' ∧
      token.toList.getLast? = some '"' := by
  constructor
  · intro h
    rw [isString_iff.mp h]
    refine ⟨?_, ?_, ?_⟩
    · rw [String.utf8ByteSize_append, String.utf8ByteSize_append]
      exact Nat.add_le_add (Nat.le_add_right 1 _) (Nat.le_refl 1)
    · simp
    · rw [String.toList_append]
      exact List.getLast?_concat ..
  · rintro ⟨hsize, hhead, hlast⟩
    obtain ⟨rest, hrest⟩ := List.head?_eq_some_iff.mp hhead
    cases rest with
    | nil =>
      obtain rfl : token = "\"" := String.toList_injective hrest
      exact absurd hsize (by decide)
    | cons c cs =>
      rw [hrest, List.getLast?_cons_cons] at hlast
      simp [isString, hrest, hlast]

/-- The two quotes of a literal are one byte each, so what stands between them is a slice. -/
theorem slice?_content {token : Token} (h : token.isString = true) :
    slice? token 1 (token.utf8ByteSize - 1) = some token.content := by
  have htoken := isString_iff.mp h
  have hslice := slice?_append "\"" token.content "\""
  have hstop : token.utf8ByteSize - 1 = ("\"" ++ token.content).utf8ByteSize := by
    rw [congrArg String.utf8ByteSize htoken, String.utf8ByteSize_append]
    exact Nat.add_sub_cancel ..
  rw [← htoken, ← hstop] at hslice
  exact hslice

end Token

namespace Cutter

/-- The tokens of a source are cut out of it by byte offsets, and no cut fails. After every front part
the offsets are those of the scanner. What was cut out and what is being read are parts of the source,
in order, and leave out blanks only. So it is at the end, where the lexemes of the source are what was
cut out. The quotes of a string literal can be cut off, too. -/
theorem cuts_are_slices (source : String) :
    (∀ front back, source = front ++ back →
      (after source front =
        match Scanner.initial.read front.toList with
        | .error e => .error (.scan e)
        | .ok s => .ok (ofScanner s)) ∧
      (∀ start stop, after source front ≠ .error (.range start stop)) ∧
      ∀ k, after source front = .ok k → k.Sound source front) ∧
    (ofSource source =
      match Lexeme.ofText source with
      | .error e => .error (.scan e)
      | .ok lexemes => .ok ⟨lexemes.reverse.map Lexeme.cut, none, none⟩) ∧
    (∀ start stop, ofSource source ≠ .error (.range start stop)) ∧
    (∀ k, ofSource source = .ok k → k.Sound source source) ∧
    ∀ token : Token,
      (token.isString = true ↔ 2 ≤ token.utf8ByteSize ∧ token.toList.head? = some '"' ∧
        token.toList.getLast? = some '"') ∧
      (token.isString = true →
        slice? token 1 (token.utf8ByteSize - 1) = some token.content) := by
  refine ⟨?_, ofSource_eq source, ?_, ?_, fun token =>
    ⟨Token.isString_iff_bytes, Token.slice?_content⟩⟩
  · rintro front back rfl
    rw [after_eq]
    refine ⟨rfl, ?_⟩
    cases hs : Scanner.initial.read front.toList with
    | error e => simp
    | ok s =>
      refine ⟨by simp, fun k hk => ?_⟩
      cases hk
      exact sound_ofScanner (.of_read hs) back
  · intro start stop
    rw [ofSource_eq]
    cases Lexeme.ofText source <;> simp
  · intro k hk
    rw [ofSource_eq, Lexeme.ofText] at hk
    cases hs : Scanner.initial.read source.toList with
    | error e => simp [hs] at hk
    | ok s =>
      rcases s.mode.unquoted_or with hm | ⟨token, quote, hm⟩
      · simp only [hs, Scanner.finish_unquoted hm, List.reverse_reverse] at hk
        cases hk
        exact sound_ended (.of_read hs) hm
      · simp [hs, Scanner.finish, hm] at hk

/-- Characters of one, two and three bytes, in front of the second quote and at the end. -/
theorem cuts_are_slices_accents :
    Sound ⟨[⟨1, 3, "λ"⟩, ⟨0, 1, "("⟩], none, some (6, 4)⟩ "(λ\u2003b\"é\"" "(λ\u2003b\"é" ∧
      Sound ⟨[⟨6, 11, "b\"é\""⟩, ⟨1, 3, "λ"⟩, ⟨0, 1, "("⟩], none, none⟩ "(λ\u2003b\"é\""
        "(λ\u2003b\"é\"" ∧
      slice? "\"é\"" 1 3 = some "é" := by
  obtain ⟨hfronts, hsource, -, hend, htoken⟩ := cuts_are_slices "(λ\u2003b\"é\""
  obtain ⟨hfront, -, hsound⟩ := hfronts "(λ\u2003b\"é" "\"" (by decide)
  refine ⟨hsound _ (hfront.trans ?_), hend _ (hsource.trans ?_), ?_⟩
  · rfl
  · rfl
  · exact (htoken "\"é\"").2 (by decide)

end Cutter
end PrefixCalc
