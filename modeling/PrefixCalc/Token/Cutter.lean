import PrefixCalc.Token.Scanner

/-!
# PrefixCalc.Token.Cutter

The scanner once more, with byte offsets in place of the texts of tokens. It keeps where a token
starts, and cuts the token out of the source when it is complete. A range that is none of the source is
an error here: there is text between two offsets only if they are in order and each of them stands in
front of a character of the source or at its end, so that no character is cut in two.
-/

namespace PrefixCalc

/-! ## Slices -/

def slice? (text : String) (start stop : Nat) : Option String :=
  if h : String.Pos.Raw.IsValid text ⟨start⟩ ∧ String.Pos.Raw.IsValid text ⟨stop⟩ ∧ start ≤ stop then
    some (String.extract (text.pos ⟨start⟩ h.1) (text.pos ⟨stop⟩ h.2.1))
  else none

/-- The offsets around a part of a text give that part back. -/
theorem slice?_append (front part back : String) :
    slice? (front ++ part ++ back) front.utf8ByteSize (front ++ part).utf8ByteSize = some part := by
  have hvalid : String.Pos.Raw.IsValid (front ++ part ++ back) ⟨front.utf8ByteSize⟩ ∧
      String.Pos.Raw.IsValid (front ++ part ++ back) ⟨(front ++ part).utf8ByteSize⟩ ∧
      front.utf8ByteSize ≤ (front ++ part).utf8ByteSize := by
    refine ⟨?_, ?_, ?_⟩
    · exact String.Pos.Raw.isValid_iff_exists_append.mpr
        ⟨front, part ++ back, String.append_assoc, rfl⟩
    · exact String.Pos.Raw.isValid_iff_exists_append.mpr ⟨front ++ part, back, rfl, rfl⟩
    · rw [String.utf8ByteSize_append]
      exact Nat.le_add_right ..
  rw [slice?, dif_pos hvalid, Option.some_inj, ← String.toByteArray_inj, String.toByteArray_extract,
    String.offset_pos, String.offset_pos, String.toByteArray_append, ← String.size_toByteArray,
    ← String.size_toByteArray, ByteArray.extract_append_size_left, String.toByteArray_append]
  exact ByteArray.extract_append_eq_right rfl ByteArray.size_append

theorem valid_of_slice? {text part : String} {start stop : Nat}
    (h : slice? text start stop = some part) :
    String.Pos.Raw.IsValid text ⟨start⟩ ∧ String.Pos.Raw.IsValid text ⟨stop⟩ ∧ start ≤ stop := by
  unfold slice? at h
  split at h
  · assumption
  · cases h

/-! ## Cutting -/

/-- A token that was cut out of the source, with its range. -/
structure Cut where
  start : Nat
  stop : Nat
  text : Token
  deriving DecidableEq, Repr

def Lexeme.cut (l : Lexeme) : Cut :=
  ⟨l.start, l.stop, l.text⟩

inductive CutError where
  | scan (e : ScanError)
  /-- The source has nothing to cut out between these offsets. -/
  | range (start stop : Nat)
  deriving DecidableEq, Repr

/-- What was cut out, the latest first, and where the token that is being read starts: outside
quotes, if there is one, or between them, together with the character index of the opening quote. -/
structure Cutter where
  emitted : List Cut
  pending : Option Nat
  quoted : Option (Nat × Nat)
  deriving DecidableEq, Repr

namespace Cutter

def initial : Cutter :=
  { emitted := [], pending := none, quoted := none }

def emit (source : String) (k : Cutter) (start stop : Nat) : Except CutError Cutter :=
  match slice? source start stop with
  | none => .error (.range start stop)
  | some text => .ok { k with emitted := ⟨start, stop, text⟩ :: k.emitted }

def flush (source : String) (k : Cutter) (stop : Nat) : Except CutError Cutter :=
  match k.pending with
  | none => .ok k
  | some start => { k with pending := none }.emit source start stop

/-- One character, with its index and its byte offset. -/
def step (source : String) (k : Cutter) (position offset : Nat) (c : Char) :
    Except CutError Cutter :=
  match k.quoted with
  | none =>
    if isBlank c then k.flush source offset
    else if c = '(' ∨ c = ')' then
      match k.flush source offset with
      | .error e => .error e
      | .ok k' => k'.emit source offset (offset + 1)
    else if c = '"' then
      .ok { k with pending := none, quoted := some (k.pending.getD offset, position) }
    else .ok { k with pending := some (k.pending.getD offset) }
  | some (start, quote) =>
    if c = '"' then { k with quoted := none }.emit source start (offset + 1)
    else if c = '\n' then .error (.scan (.unclosedString quote))
    else .ok k

def run (source : String) (k : Cutter) (position offset : Nat) :
    List Char → Except CutError Cutter
  | [] => .ok k
  | c :: rest =>
    match k.step source position offset c with
    | .error e => .error e
    | .ok k' => k'.run source (position + 1) (offset + c.utf8Size) rest

/-- The end of the source, which has this offset. -/
def finish (source : String) (k : Cutter) (offset : Nat) : Except CutError Cutter :=
  match k.quoted with
  | none => k.flush source offset
  | some (_, quote) => .error (.scan (.unclosedString quote))

/-- After the characters of a front part of the source. -/
def after (source front : String) : Except CutError Cutter :=
  initial.run source 0 0 front.toList

/-- After the whole source and its end. -/
def ofSource (source : String) : Except CutError Cutter :=
  match after source source with
  | .error e => .error e
  | .ok k => k.finish source source.utf8ByteSize

end Cutter
end PrefixCalc
