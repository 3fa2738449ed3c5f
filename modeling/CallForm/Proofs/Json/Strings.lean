/-
  CallForm.Proofs.Json.Strings — quoted strings read back.

  A character as it stands between quotes is read as itself (`readStringFrom_escape`), so the
  text between quotes is read as the string it was written for, and nothing behind the closing
  quote is touched (`readString_escaped`).
-/

import CallForm.Json.Reader
import CallForm.Json.Writer

namespace CallForm.Json

theorem hexValue?_hexDigit : ∀ n < 16, hexValue? (hexDigit n) = some n := by decide

theorem hasFourBytes_cons (a b c d : Char) (cs : List Char) :
    hasFourBytes (a :: b :: c :: d :: cs) = true := by
  have ha := a.utf8Size_pos
  have hb := b.utf8Size_pos
  have hc := c.utf8Size_pos
  have hd := d.utf8Size_pos
  simp only [hasFourBytes, List.take_succ_cons, List.take_zero, List.map_cons, List.map_nil,
    List.foldl_cons, List.foldl_nil, decide_eq_true_eq]
  omega

/-- A character stands in a string by a letter, by its code, or as itself. -/
theorem escape_cases (c : Char) :
    (∃ d, escape c = ['\\', d] ∧ d ≠ 'u' ∧ unescape? d = some c) ∨
    (escape c = ['\\', 'u', '0', '0', hexDigit (c.toNat / 16), hexDigit (c.toNat % 16)] ∧
      c.toNat < 0x20) ∨
    (escape c = [c] ∧ c ≠ '"' ∧ c ≠ '\\' ∧ ¬ c.toNat < 0x20) := by
  unfold escape
  split
  · exact .inl ⟨'"', rfl, by decide, by simp [unescape?, *]⟩
  split
  · exact .inl ⟨'\\', rfl, by decide, by simp [unescape?, *]⟩
  split
  · exact .inl ⟨'n', rfl, by decide, by simp [unescape?, *]⟩
  split
  · exact .inl ⟨'r', rfl, by decide, by simp [unescape?, *]⟩
  split
  · exact .inl ⟨'t', rfl, by decide, by simp [unescape?, *]⟩
  split
  · exact .inl ⟨'b', rfl, by decide, by simp [unescape?, *]⟩
  split
  · exact .inl ⟨'f', rfl, by decide, by simp [unescape?, *]⟩
  split
  · exact .inr (.inl ⟨rfl, ‹_›⟩)
  · exact .inr (.inr ⟨rfl, ‹_›, ‹_›, ‹_›⟩)

/-- A character below U+0020, written by its code. -/
theorem readStringFrom_code {c : Char} (h : c.toNat < 0x20) (done cs : List Char) :
    readStringFrom .plain done
      ('\\' :: 'u' :: '0' :: '0' :: hexDigit (c.toNat / 16) :: hexDigit (c.toNat % 16) :: cs) =
        readStringFrom .plain (c :: done) cs := by
  have hzero : hexValue? '0' = some 0 := rfl
  have hhigh := hexValue?_hexDigit (c.toNat / 16) (by omega)
  have hlow := hexValue?_hexDigit (c.toNat % 16) (by omega)
  have hcode : 16 * (c.toNat / 16) + c.toNat % 16 = c.toNat := by omega
  have hlead : isLead c.toNat = false := by simp [isLead]; omega
  have htrail : isTrail c.toNat = false := by simp [isTrail]; omega
  simp [readStringFrom, hasFourBytes_cons, hzero, hhigh, hlow, hcode, hlead, htrail]

theorem readStringFrom_escape (c : Char) (done cs : List Char) :
    readStringFrom .plain done (escape c ++ cs) = readStringFrom .plain (c :: done) cs := by
  obtain ⟨d, hc, hd, hvalue⟩ | ⟨hc, hcode⟩ | ⟨hc, hquote, hslash, hcode⟩ := escape_cases c
  · simp [hc, readStringFrom, hd, hvalue]
  · rw [hc]
    exact readStringFrom_code hcode done cs
  · simp [hc, readStringFrom, hquote, hslash, hcode]

theorem readStringFrom_escapes (cs done rest : List Char) :
    readStringFrom .plain done (cs.flatMap escape ++ '"' :: rest) =
      .ok (done.reverse ++ cs, rest) := by
  induction cs generalizing done with
  | nil => simp [readStringFrom]
  | cons c cs ih =>
    rw [List.flatMap_cons, List.append_assoc, readStringFrom_escape, ih]
    simp

theorem readString_escaped (s : String) (rest : List Char) :
    readString (s.toList.flatMap escape ++ '"' :: rest) = .ok (s, rest) := by
  simp [readString, readStringFrom_escapes, Except.map]

theorem toList_quoted (s : String) :
    (quoted s).toList = '"' :: (s.toList.flatMap escape ++ ['"']) := by
  simp [quoted]

/-- A quoted string at the front of a text. -/
theorem quoted_append (s : String) (rest : List Char) :
    (quoted s).toList ++ rest = '"' :: (s.toList.flatMap escape ++ '"' :: rest) := by
  simp [toList_quoted]

end CallForm.Json
