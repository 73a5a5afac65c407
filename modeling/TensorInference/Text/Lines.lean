/-!
# Lines of a text

A text is cut at its line feeds. A final line feed ends the last line and opens no further one, so
the empty text has no lines. `trimEnd` takes blanks off the right end of a line; the blanks are
the characters that Unicode calls white space, the carriage return among them, so texts with
either line ending have the same trimmed lines.
-/

namespace TensorInference.Text

/-- Unicode white space. -/
def isBlank (c : Char) : Bool :=
  let point := c.toNat
  (0x09 ≤ point && point ≤ 0x0d) || point = 0x20 || point = 0x85 || point = 0xa0 ||
    point = 0x1680 || (0x2000 ≤ point && point ≤ 0x200a) || point = 0x2028 || point = 0x2029 ||
    point = 0x202f || point = 0x205f || point = 0x3000

def trimEnd (line : List Char) : List Char :=
  (line.reverse.dropWhile isBlank).reverse

/-- Cut a text at its line feeds. -/
def lines : List Char → List (List Char)
  | [] => []
  | c :: rest =>
    if c = '\n' then [] :: lines rest
    else match lines rest with
      | [] => [[c]]
      | line :: more => (c :: line) :: more

def trimmedLines (text : String) : List String :=
  (lines text.toList).map fun line => String.ofList (trimEnd line)

/-- A line feed always closes a line. -/
theorem lines_append_newline (front : List Char) (rest : List Char) (h : '\n' ∉ front) :
    lines (front ++ '\n' :: rest) = front :: lines rest := by
  induction front with
  | nil => simp [lines]
  | cons c front ih =>
    have hc : c ≠ '\n' := fun hc => h (by simp [hc])
    have hfront : '\n' ∉ front := fun hmem => h (List.mem_cons_of_mem _ hmem)
    simp [lines, hc, ih hfront]

end TensorInference.Text
