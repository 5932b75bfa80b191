import FieldCalculus.Digest.Sha256
import FieldCalculus.Text.Hex
import FieldCalculus.Wire.Encode

/-!
The identity of code. A lambda is named by the first eight bytes of the digest of its
parameters and body on the wire, so devices that hold the same program give its
lambdas the same names.
-/

namespace FieldCalculus

/-- The bytes that identify a lambda: its parameters, then its body. -/
def Wire.lambdaContent (params : List String) (body : Expr) : Bytes :=
  texts params ++ expr body

/-- The name of a lambda's code. -/
def CodeId.ofContent (params : List String) (body : Expr) : CodeId :=
  ⟨Text.hexBytes ((Sha256.digest (Wire.lambdaContent params body)).take 8)⟩

/-- A lambda named by its content. -/
def Expr.fn (params : List String) (body : Expr) : Expr :=
  .lambda (.ofContent params body) params body

end FieldCalculus
