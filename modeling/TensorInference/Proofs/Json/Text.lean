import Mathlib.Tactic.SplitIfs
import TensorInference.Json.Value

/-!
# Strings as read

A written string is read back whole: its content, what skimming it finds, and what follows its
closing quote. `skimContent_append` is about any text: a string that has been closed is left in the
same place whatever stands behind it.
-/

namespace TensorInference.Json

theorem skimContent_quote (s : Bytes) : skimContent (0x22 :: s) = .ok s := by
  rw [skimContent.eq_def]
  simp

theorem skimContent_letter {letter : UInt8} (s : Bytes) (h : (simpleEscape letter).isSome) :
    skimContent (0x5c :: letter :: s) = skimContent s := by
  have hletter : letter ≠ 0x75 := by
    rintro rfl
    exact absurd h (by decide)
  rw [skimContent.eq_def]
  simp [hletter, h]

theorem skimContent_unit {h₁ h₂ h₃ h₄ : UInt8} (s : Bytes) (h : (hexValue4 h₁ h₂ h₃ h₄).isSome) :
    skimContent (0x5c :: 0x75 :: h₁ :: h₂ :: h₃ :: h₄ :: s) = skimContent s := by
  rw [skimContent.eq_def]
  simp [h]

theorem skimContent_plain {b : UInt8} (s : Bytes) (hquote : b ≠ 0x22) (hslash : b ≠ 0x5c)
    (hcontrol : ¬ b < 0x20) : skimContent (b :: s) = skimContent s := by
  rw [skimContent.eq_def]
  simp [hquote, hslash, hcontrol]

/-- What is no quote, no backslash and no control character stands for itself. -/
theorem escapeByte_plain {b : UInt8} (hquote : b ≠ 0x22) (hslash : b ≠ 0x5c)
    (hcontrol : ¬ b < 0x20) : escapeByte b = [b] := by
  have hne : ∀ c : UInt8, c < 0x20 → b ≠ c := by
    rintro c hc rfl
    exact hcontrol hc
  simp [escapeByte, hquote, hslash, hcontrol, hne 0x08 (by decide), hne 0x09 (by decide),
    hne 0x0a (by decide), hne 0x0c (by decide), hne 0x0d (by decide)]

private theorem isSome_hexValue4_control :
    ∀ n : Fin 32, (hexValue4 0x30 0x30 (hexDigit (n.val / 16)) (hexDigit (n.val % 16))).isSome := by
  decide

/-- An escaped byte is skimmed over. -/
theorem skimContent_escapeByte (b : UInt8) (s : Bytes) :
    skimContent (escapeByte b ++ s) = skimContent s := by
  unfold escapeByte
  split_ifs with h22 h5c h08 h09 h0a h0c h0d hcontrol
  -- what is left are control characters without a letter, and bytes that stand for themselves
  any_goals exact skimContent_letter s rfl
  · exact skimContent_unit s (isSome_hexValue4_control ⟨b.toNat, UInt8.lt_iff_toNat_lt.1 hcontrol⟩)
  · exact skimContent_plain s h22 h5c hcontrol

/-- A written string is skimmed to its closing quote. -/
theorem skimContent_escape (bytes rest : Bytes) :
    skimContent (escape bytes ++ 0x22 :: rest) = .ok rest := by
  induction bytes with
  | nil => exact skimContent_quote rest
  | cons b bytes ih =>
    rw [escape, List.flatMap_cons, List.append_assoc, skimContent_escapeByte]
    exact ih

/-- A written string is read as the token of its text. -/
theorem readToken_escape (text : String) (rest : Bytes) :
    readToken (escape (Bytes.ofText text) ++ 0x22 :: rest) = (Value.token text, rest) := by
  generalize hbytes : escape (Bytes.ofText text) = bytes
  have hraw : (bytes ++ 0x22 :: rest).takeWhile (· ≠ 0x22) = bytes.takeWhile (· ≠ 0x22) := by
    rw [List.takeWhile_append]
    split
    · rename_i hall
      have hbytes := (List.takeWhile_prefix (· ≠ (0x22 : UInt8))).eq_of_length hall
      rw [hbytes, List.takeWhile_cons_of_neg (by decide), List.append_nil]
    · rfl
  have hquoted : ((bytes ++ 0x22 :: rest).dropWhile (· ≠ 0x22)).isEmpty = false := by
    rw [List.dropWhile_append]
    split
    · simp
    · rename_i hne
      simp
  have hcontent := content_escape (Bytes.ofText text) rest
  have hskim := skimContent_escape (Bytes.ofText text) rest
  rw [hbytes] at hcontent hskim
  simp only [readToken, hcontent, hskim, Bytes.text?_ofText, hraw, hquoted, Value.token, hbytes,
    Bool.not_false]

/-- A string that has been closed is left in the same place whatever stands behind it. -/
theorem skimContent_append {s r : Bytes} (h : skimContent s = .ok r) (t : Bytes) :
    skimContent (s ++ t) = .ok (r ++ t) := by
  fun_induction skimContent s
  case case2 rest =>
    obtain rfl := Except.ok.inj h
    exact skimContent_quote _
  case case4 hhex _ ih => exact (skimContent_unit _ hhex).trans (ih h)
  case case7 hletter _ ih => exact (skimContent_letter _ hletter).trans (ih h)
  case case10 hquote hslash hcontrol ih =>
    exact (skimContent_plain _ hquote hslash hcontrol).trans (ih h)
  -- the other ends are faults
  all_goals exact nomatch h

end TensorInference.Json
