import Mathlib.Data.List.DropRight
import TensorInference.Text.Lines

/-!
# What the lines of a text are

The lines of a text are without line feeds, and a line feed after each of them makes the text
again, which gets a line feed at its end if it has none. There is one way only to cut a text so.
Trimming a line takes away all the blanks at its end and nothing else.
Main statement: `cutsInto_iff`.
-/

namespace TensorInference.Text

/-- The text with a line feed at its end, unless it has one there or is empty. -/
def closed (text : List Char) : List Char :=
  if text = [] ∨ text.getLast? = some '\n' then text else text ++ ['\n']

/-- Whether a text is cut into lines at its line feeds. -/
structure CutsInto (text : List Char) (cut : List (List Char)) : Prop where
  unbroken : ∀ line ∈ cut, '\n' ∉ line
  joined : cut.flatMap (· ++ ['\n']) = closed text

/-- Whether a line is trimmed to a text. -/
structure TrimsTo (line trimmed : List Char) : Prop where
  blanks : ∃ blanks, line = trimmed ++ blanks ∧ ∀ c ∈ blanks, isBlank c = true
  ends : ∀ c, trimmed.getLast? = some c → isBlank c = false

variable {text line rest : List Char} {cut : List (List Char)} {c : Char}

theorem closed_newline : closed ('\n' :: rest) = '\n' :: closed rest := by
  cases rest with
  | nil => rfl
  | cons d more =>
    simp only [closed, List.getLast?_cons_cons, reduceCtorEq, false_or]
    split <;> rfl

theorem closed_cons (h : rest ≠ []) : closed (c :: rest) = c :: closed rest := by
  obtain ⟨d, more, rfl⟩ := List.exists_cons_of_ne_nil h
  simp only [closed, List.getLast?_cons_cons, reduceCtorEq, false_or]
  split <;> rfl

theorem lines_eq_nil_iff : lines text = [] ↔ text = [] := by
  cases text with
  | nil => simp [lines]
  | cons c rest =>
    rw [lines]
    split
    · simp
    · split <;> simp

theorem cutsInto_lines (text : List Char) : CutsInto text (lines text) := by
  induction text with
  | nil => exact ⟨List.forall_mem_nil _, rfl⟩
  | cons c rest ih =>
    rw [lines]
    split
    · rename_i hc
      subst hc
      refine ⟨List.forall_mem_cons.2 ⟨List.not_mem_nil, ih.unbroken⟩, ?_⟩
      rw [List.flatMap_cons, ih.joined, closed_newline]
      rfl
    · rename_i hc
      split
      · rename_i hrest
        obtain rfl := lines_eq_nil_iff.1 hrest
        exact ⟨by simpa using Ne.symm hc, by simp [closed, hc]⟩
      · rename_i first more hrest
        have hne : rest ≠ [] := fun hnil ↦ by simp [hnil, lines] at hrest
        rw [hrest] at ih
        obtain ⟨hfirst, hmore⟩ := List.forall_mem_cons.1 ih.unbroken
        refine ⟨List.forall_mem_cons.2
          ⟨List.not_mem_cons_of_ne_of_not_mem (Ne.symm hc) hfirst, hmore⟩, ?_⟩
        have hjoined := ih.joined
        rw [List.flatMap_cons] at hjoined ⊢
        rw [closed_cons hne, ← hjoined]
        rfl

/-- Lines that are joined are found again. -/
theorem lines_flatMap (h : ∀ line ∈ cut, '\n' ∉ line) :
    lines (cut.flatMap (· ++ ['\n'])) = cut := by
  induction cut with
  | nil => rfl
  | cons first more ih =>
    obtain ⟨hfirst, hmore⟩ := List.forall_mem_cons.1 h
    rw [List.flatMap_cons, List.append_assoc, List.singleton_append,
      lines_append_newline _ _ hfirst, ih hmore]

/-- There is one way only to cut a text into lines. -/
theorem cutsInto_iff : CutsInto text cut ↔ cut = lines text := by
  constructor
  · intro h
    have hlines := cutsInto_lines text
    rw [← lines_flatMap h.unbroken, h.joined, ← hlines.joined, lines_flatMap hlines.unbroken]
  · rintro rfl
    exact cutsInto_lines text

theorem trimsTo_trimEnd (line : List Char) : TrimsTo line (trimEnd line) where
  blanks := by
    refine ⟨(line.reverse.takeWhile isBlank).reverse, ?_, fun c hc ↦ ?_⟩
    · rw [trimEnd, ← List.reverse_append, List.takeWhile_append_dropWhile, List.reverse_reverse]
    · exact List.mem_takeWhile_imp (List.mem_reverse.1 hc)
  ends c hc := by
    have hne : trimEnd line ≠ [] := List.ne_nil_of_mem (List.mem_of_getLast? hc)
    have hlast := List.rdropWhile_last_not isBlank line hne
    rw [List.getLast?_eq_some_getLast hne] at hc
    rw [← Option.some.inj hc]
    exact Bool.not_eq_true _ ▸ hlast

end TensorInference.Text
