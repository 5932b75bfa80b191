import FieldCalculus.Program.Format
import FieldCalculus.Proofs.Json.Document
import FieldCalculus.Proofs.Replacement
import FieldCalculus.Proofs.Yaml.RoundTrip

/-!
Programs are read back from JSON but for the last digits of their numbers. A number is printed with
the fewest digits that stand for it, which the reader takes as a whole number and then multiplies or
divides by a power of ten. Each of the two is rounded, so that what is read may lie a few numbers
beside what was printed. It is the same where digits and power are small enough to be exact.
-/

namespace FieldCalculus

namespace Json

/-- Numbers of one sign at most five steps from each other, where a step leads from a number to the
next one. -/
structure NumberText.Near (n read : Number) : Prop where
  finite : read.isFinite
  sign : read.isNegative = n.isNegative
  above : read.magnitude.toNat ≤ n.magnitude.toNat + 5
  below : n.magnitude.toNat ≤ read.magnitude.toNat + 5

/-- Whether a number is written with so few digits, and so small a power of ten, that both are
numbers themselves. -/
def NumberText.isShort (n : Number) : Bool :=
  n.isFinite && decide ((asWritten (Decimal.shortest n)).coefficient ≤ 2 ^ 53) &&
    decide ((asWritten (Decimal.shortest n)).exponent.natAbs ≤ 22)

end Json

namespace ProgramFormat

open Json (NumberText)

/-- What is read from a printed program is its document with other leaves. -/
theorem document?_render_json (e : Expr) :
    json.document? (json.render e) = some (e.document.mapLeaves Json.leaf) :=
  Json.document?_pretty (Yaml.isWritten_expr e)

theorem levels_json (e : Expr) : e.levels json.reading = e.document.nesting :=
  Expr.levels_eq_nesting rfl e

/-- A program that nests deeper than the reader goes is printed and not read. -/
theorem parse?_render_json_of_deep {e : Expr} (h : 127 < e.document.nesting) :
    json.parse? (json.render e) = none := by
  rw [parse?, document?_render_json]
  refine Reading.expr?_eq_none_of_deep ?_
  rw [levels_json]
  exact h

end ProgramFormat

end FieldCalculus
