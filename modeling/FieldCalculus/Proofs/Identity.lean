import FieldCalculus.Lambda
import FieldCalculus.Proofs.Wire

/-!
What identifies code. A lambda is named by the digest of its parameters and its body, which are
written one after the other with nothing in between. The bytes that are digested tell the two
apart all the same and tell everything in them: they can be read back, and no content begins the
bytes of another one.
-/

namespace FieldCalculus

namespace Wire

namespace Reads

variable {α : Type} {bound : Nat} {d : Decoder α} {bytes back : Bytes} {a b : α}

/-- Bytes that are read as a whole do not begin other bytes that are read as a whole, and they are
read as one thing only. -/
theorem unique (h : Reads bound d bytes a) (hlonger : Reads bound d (bytes ++ back) b)
    (hlength : (bytes ++ back).length < bound) : back = [] ∧ a = b := by
  obtain ⟨after, hread⟩ := h.whole back 0 hlength
  obtain ⟨after', hread'⟩ := hlonger.whole [] 0 (by rwa [List.append_nil])
  rw [List.append_nil, hread] at hread'
  cases hread'
  exact ⟨rfl, rfl⟩

end Reads

/-- Reads the content of a lambda back. -/
def readContent (depth : Nat) : Decoder (List String × Expr) := do
  let params ← readList readText
  return (params, ← readExpr depth)

variable {params params' : List String} {body body' : Expr}

theorem reads_content (bound : Nat) (h : (Expr.fn params body).isWritable) :
    Reads bound (readContent bound) (lambdaContent params body) (params, body) := by
  simp only [Expr.fn, Expr.isWritable, Bool.and_eq_true, decide_eq_true_eq] at h
  obtain ⟨⟨-, hlength, hparams⟩, hbody⟩ := h
  rw [readContent, lambdaContent]
  exact (Reads.texts bound hlength hparams).andThen ((reads_expr hbody bound).map _)

/-- The bytes that are digested to name a lambda are those of another one exactly if the two have
the same parameters and the same body, node by node, and they never make up a part of the other's
bytes at the front only. -/
theorem lambdaContent_eq_iff (h : (Expr.fn params body).isWritable)
    (h' : (Expr.fn params' body').isWritable) :
    (lambdaContent params body = lambdaContent params' body' ↔
      params = params' ∧ body = body') ∧
    (lambdaContent params body <+: lambdaContent params' body' →
      lambdaContent params body = lambdaContent params' body') := by
  have hfront : ∀ back, lambdaContent params body ++ back = lambdaContent params' body' →
      back = [] ∧ (params, body) = (params', body') := by
    intro back hback
    have hread := reads_content ((lambdaContent params' body').length + 1) h
    have hread' := reads_content ((lambdaContent params' body').length + 1) h'
    rw [← hback] at hread hread'
    exact hread.unique hread' (Nat.lt_succ_self _)
  constructor
  case left =>
    constructor
    · intro heq
      obtain ⟨-, hsame⟩ := hfront [] (by rw [List.append_nil, heq])
      exact ⟨congrArg Prod.fst hsame, congrArg Prod.snd hsame⟩
    · rintro ⟨rfl, rfl⟩
      rfl
  case right =>
    rintro ⟨back, hback⟩
    obtain ⟨rfl, -⟩ := hfront back hback
    rwa [List.append_nil] at hback

/-- A body that calls a closure which has captured a zero. -/
def callsCaptured (zero : Number) : Expr :=
  .apply (.literal (.closure ⟨"c0"⟩ ["x", "y"] (.rep (.var "k") "x" (.nbr (.var "y")))
      [("k", .tuple [.number zero, .number .nan]), ("λ", .builtin .mux)]))
    [.lambda ⟨"c1"⟩ [] .selfId, .literal (.text "xy")]

/-- Bodies that differ in the sign of a captured zero are digested from different bytes. -/
theorem lambdaContent_callsCaptured :
    (Expr.fn ["x", "y"] (callsCaptured .zero)).isWritable ∧
    (Expr.fn ["x", "y"] (callsCaptured .negativeZero)).isWritable ∧
    ¬lambdaContent ["x", "y"] (callsCaptured .zero) <+:
      lambdaContent ["x", "y"] (callsCaptured .negativeZero) := by
  have hboth : (Expr.fn ["x", "y"] (callsCaptured .zero)).isWritable ∧
      (Expr.fn ["x", "y"] (callsCaptured .negativeZero)).isWritable := by decide +kernel
  obtain ⟨h, h'⟩ := hboth
  refine ⟨h, h', fun hfront => ?_⟩
  obtain ⟨hsame, hwhole⟩ := lambdaContent_eq_iff h h'
  obtain ⟨-, hbody⟩ := hsame.mp (hwhole hfront)
  have hsign : Number.zero = Number.negativeZero := by simpa [callsCaptured] using hbody
  exact absurd hsign (by decide)

end Wire

end FieldCalculus
