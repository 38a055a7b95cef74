import PrefixCalc.Text.Quoted

/-!
# PrefixCalc.Proofs.Text.Quoted

Quoted text can be read back. A code is self-delimiting if it shows where it ends, so that a value
and what stands behind its code can both be told from the whole; quoted text is such a code.

* `SelfDelimiting.flatMap`: codes one behind the other, up to a mark that no code starts with.
* `append_mark_inj`: characters up to a mark that is not among them.
* `toDigits_injective`: a number is told by its digits, for all bases up to sixteen.
* `escapes_escape`: the three sorts of escapes. Whichever characters are printable, no two of them
  start alike.
* `selfDelimiting_ofText`: so quoted text shows where it ends and what it quotes.
* `newline_not_mem_ofText`: it stands on one line.
-/

namespace PrefixCalc

/-! ## Codes that show where they end -/

variable {α β : Type}

/-- The code of `a` shows where it ends: what it is part of starts with no other code, whatever
stands behind it. -/
def SelfDelimiting (code : α → List β) (a : α) : Prop :=
  ∀ (b : α) (r s : List β), code a ++ r = code b ++ s → a = b ∧ r = s

theorem SelfDelimiting.eq_of_code {code : α → List β} {a b : α} (h : SelfDelimiting code a)
    (hcode : code a = code b) : a = b :=
  (h b [] [] (by rw [hcode])).1

theorem SelfDelimiting.flatMap {code : α → List β} {mark : β} {xs ys : List α} {r s : List β}
    (hxs : ∀ x ∈ xs, SelfDelimiting code x) (hmark : ∀ a t u, code a ++ t ≠ mark :: u)
    (h : xs.flatMap code ++ mark :: r = ys.flatMap code ++ mark :: s) : xs = ys ∧ r = s := by
  induction xs generalizing ys with
  | nil =>
    cases ys with
    | nil => exact ⟨rfl, (List.cons.inj h).2⟩
    | cons y ys =>
      rw [List.flatMap_cons, List.append_assoc] at h
      exact absurd h.symm (hmark y _ _)
  | cons x xs ih =>
    obtain ⟨hx, hxs⟩ := List.forall_mem_cons.mp hxs
    cases ys with
    | nil =>
      rw [List.flatMap_cons, List.append_assoc] at h
      exact absurd h (hmark x _ _)
    | cons y ys =>
      simp only [List.flatMap_cons, List.append_assoc] at h
      obtain ⟨rfl, hrest⟩ := hx y _ _ h
      obtain ⟨rfl, hrs⟩ := ih hxs hrest
      exact ⟨rfl, hrs⟩

theorem append_mark_inj {mark : β} {xs ys r s : List β} (hx : mark ∉ xs) (hy : mark ∉ ys)
    (h : xs ++ mark :: r = ys ++ mark :: s) : xs = ys ∧ r = s := by
  induction xs generalizing ys with
  | nil =>
    cases ys with
    | nil => exact ⟨rfl, (List.cons.inj h).2⟩
    | cons y ys => exact absurd (List.cons.inj h).1 fun e => hy (e ▸ List.mem_cons_self ..)
  | cons x xs ih =>
    cases ys with
    | nil => exact absurd (List.cons.inj h).1 fun e => hx (e ▸ List.mem_cons_self ..)
    | cons y ys =>
      obtain ⟨rfl, hrest⟩ := List.cons.inj h
      obtain ⟨rfl, hrs⟩ := ih (mt (List.mem_cons_of_mem _) hx) (mt (List.mem_cons_of_mem _) hy) hrest
      exact ⟨rfl, hrs⟩

/-! ## Digits -/

section Digits

variable {base : Nat} (hb : 1 < base) (hle : base ≤ 16)
include hb

theorem exists_digit_of_mem_toDigits {n : Nat} {c : Char} (h : c ∈ Nat.toDigits base n) :
    ∃ d < base, c = Nat.digitChar d := by
  induction n using Nat.strongRecOn with
  | ind n ih =>
    by_cases hn : n < base
    · rw [Nat.toDigits_of_lt_base hn, List.mem_singleton] at h
      exact ⟨n, hn, h⟩
    · rw [Nat.toDigits_of_base_le hb (by omega), List.mem_append, List.mem_singleton] at h
      rcases h with h | h
      · exact ih (n / base) (Nat.div_lt_self (by omega) hb) h
      · exact ⟨n % base, Nat.mod_lt n (by omega), h⟩

theorem toDigits_ne_singleton {n : Nat} {c : Char} (hn : base ≤ n) :
    Nat.toDigits base n ≠ [c] := by
  intro h
  rw [Nat.toDigits_of_base_le hb hn] at h
  have hlen := congrArg List.length h
  have hpos : 0 < (Nat.toDigits base (n / base)).length := List.length_pos_iff.mpr Nat.toDigits_ne_nil
  rw [List.length_append, List.length_singleton, List.length_singleton] at hlen
  omega

include hle

theorem digitChar_inj {c d : Nat} (hc : c < base) (hd : d < base)
    (h : Nat.digitChar c = Nat.digitChar d) : c = d := by
  have hall : ∀ c d : Fin 16, Nat.digitChar c = Nat.digitChar d → c = d := by decide
  exact Fin.mk.inj (hall ⟨c, by omega⟩ ⟨d, by omega⟩ h)

theorem toDigits_injective {m n : Nat} (h : Nat.toDigits base m = Nat.toDigits base n) : m = n := by
  induction m using Nat.strongRecOn generalizing n with
  | ind m ih =>
    by_cases hm : m < base
    · by_cases hn : n < base
      · rw [Nat.toDigits_of_lt_base hm, Nat.toDigits_of_lt_base hn] at h
        exact digitChar_inj hb hle hm hn (List.cons.inj h).1
      · rw [Nat.toDigits_of_lt_base hm] at h
        exact absurd h.symm (toDigits_ne_singleton hb (by omega))
    · by_cases hn : n < base
      · rw [Nat.toDigits_of_lt_base hn] at h
        exact absurd h (toDigits_ne_singleton hb (by omega))
      · rw [Nat.toDigits_of_base_le hb (Nat.not_lt.mp hm),
          Nat.toDigits_of_base_le hb (Nat.not_lt.mp hn)] at h
        obtain ⟨hfront, hlast⟩ := List.append_inj' h rfl
        have hdiv : m / base = n / base := ih (m / base) (Nat.div_lt_self (by omega) hb) hfront
        have hmod : m % base = n % base :=
          digitChar_inj hb hle (Nat.mod_lt m (by omega)) (Nat.mod_lt n (by omega))
            (List.cons.inj hlast).1
        rw [← Nat.div_add_mod m base, ← Nat.div_add_mod n base, hdiv, hmod]

end Digits

/-! ## Escapes -/

namespace Quoted

/-- What a single letter behind a backslash stands for. -/
def letter? : Char → Option Char
  | '"' => some '"'
  | '\\' => some '\\'
  | 't' => some '\t'
  | 'r' => some '\r'
  | 'n' => some '\n'
  | '0' => some '\x00'
  | _ => none

/-- The ways to write a character between quotes: by a letter behind a backslash, as itself, or by
its code point. -/
inductive Escapes (c : Char) : List Char → Prop where
  | letter {l : Char} : letter? l = some c → Escapes c ['\\', l]
  | itself : c ≠ '"' → c ≠ '\\' → c ≠ '\n' → Escapes c [c]
  | code : Escapes c (['\\', 'u', '\x7b'] ++ Nat.toDigits 16 c.toNat ++ ['\x7d'])

theorem escapes_escape (c : Char) : Escapes c (escape c) := by
  unfold escape
  repeat' split
  all_goals try exact .letter (by simp_all [letter?])
  · exact .itself ‹_› ‹_› ‹_›
  · exact .code

theorem digit_ne {n : Nat} {c : Char} (h : c ∈ Nat.toDigits 16 n) : c ≠ '\x7d' ∧ c ≠ '\n' := by
  have hall : ∀ d < 16, Nat.digitChar d ≠ '\x7d' ∧ Nat.digitChar d ≠ '\n' := by decide
  obtain ⟨d, hd, rfl⟩ := exists_digit_of_mem_toDigits (by decide) h
  exact hall d hd

/-- Behind a backslash no letter is the one that starts a code point. -/
theorem letter_append_ne {c l : Char} {r s : List Char} (hl : letter? l = some c) :
    '\\' :: l :: r ≠ '\\' :: 'u' :: s := by
  intro h
  obtain ⟨rfl, -⟩ := List.cons.inj (List.cons.inj h).2
  simp [letter?] at hl

/-- Two ways to write characters start alike only if the characters are the same. -/
theorem Escapes.append_inj {c d : Char} {v w r s : List Char} (hv : Escapes c v)
    (hw : Escapes d w) (h : v ++ r = w ++ s) : c = d ∧ r = s := by
  cases hv with
  | letter hl =>
    cases hw with
    | letter hl' =>
      simp only [List.cons_append, List.nil_append, List.cons.injEq, true_and] at h
      obtain ⟨rfl, rfl⟩ := h
      exact ⟨Option.some.inj (hl.symm.trans hl'), rfl⟩
    | itself _ hb _ => exact absurd (List.cons.inj h).1.symm hb
    | code => exact absurd h (letter_append_ne hl)
  | itself _ hb _ =>
    cases hw with
    | letter _ => exact absurd (List.cons.inj h).1 hb
    | itself _ _ _ => exact List.cons.inj h
    | code => exact absurd (List.cons.inj h).1 hb
  | code =>
    cases hw with
    | letter hl => exact absurd h.symm (letter_append_ne hl)
    | itself _ hb _ => exact absurd (List.cons.inj h).1.symm hb
    | code =>
      simp only [List.cons_append, List.nil_append, List.append_assoc, List.cons.injEq,
        true_and] at h
      have hdigits : ∀ n : Nat, '\x7d' ∉ Nat.toDigits 16 n := fun n hn => (digit_ne hn).1 rfl
      obtain ⟨hcode, hrest⟩ := append_mark_inj (hdigits _) (hdigits _) h
      have hnat : c.toNat = d.toNat := toDigits_injective (by decide) (by decide) hcode
      exact ⟨Char.toNat_inj.mp hnat, hrest⟩

theorem selfDelimiting_escape (c : Char) : SelfDelimiting escape c :=
  fun d _ _ h => (escapes_escape c).append_inj (escapes_escape d) h

/-- No escape looks like the quote at the end. -/
theorem escape_append_ne_quote (c : Char) (r s : List Char) : escape c ++ r ≠ '"' :: s := by
  have hc := escapes_escape c
  generalize escape c = w at hc
  intro h
  cases hc with
  | letter _ => exact absurd (List.cons.inj h).1 (by decide)
  | itself hq _ _ => exact hq (List.cons.inj h).1
  | code => exact absurd (List.cons.inj h).1 (by decide)

theorem newline_not_mem_escape (c : Char) : '\n' ∉ escape c := by
  have hc := escapes_escape c
  generalize escape c = w at hc
  intro h
  cases hc with
  | letter hl =>
    simp only [List.mem_cons, List.not_mem_nil, or_false] at h
    obtain h | rfl := h
    · exact absurd h (by decide)
    · simp [letter?] at hl
  | itself _ _ hn => exact hn (List.mem_singleton.mp h).symm
  | code =>
    simp only [List.mem_append, List.mem_cons, List.not_mem_nil, or_false] at h
    rcases h with (h | h) | h
    · exact absurd h (by decide)
    · exact (digit_ne h).2 rfl
    · exact absurd h (by decide)

/-! ## Quoted text -/

theorem toList_ofText (text : String) :
    (ofText text).toList = '"' :: (text.toList.flatMap escape ++ ['"']) := by
  rw [ofText, String.toList_ofList]

theorem selfDelimiting_ofText (text : String) :
    SelfDelimiting (fun t => (ofText t).toList) text := by
  intro t r s h
  simp only [toList_ofText, List.cons_append, List.append_assoc, List.nil_append, List.cons.injEq,
    true_and] at h
  obtain ⟨htext, hrs⟩ := SelfDelimiting.flatMap (fun c _ => selfDelimiting_escape c)
    escape_append_ne_quote h
  exact ⟨String.toList_injective htext, hrs⟩

theorem ofText_injective {t u : String} (h : ofText t = ofText u) : t = u :=
  (selfDelimiting_ofText t).eq_of_code (congrArg String.toList h)

theorem newline_not_mem_ofText (text : String) : '\n' ∉ (ofText text).toList := by
  rw [toList_ofText]
  intro h
  simp only [List.mem_cons, List.mem_append, List.mem_flatMap, List.not_mem_nil, or_false] at h
  rcases h with h | ⟨c, -, hc⟩ | h
  · exact absurd h (by decide)
  · exact newline_not_mem_escape c hc
  · exact absurd h (by decide)

end Quoted
end PrefixCalc
