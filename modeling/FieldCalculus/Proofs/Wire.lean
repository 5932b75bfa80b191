import FieldCalculus.Network.Message
import FieldCalculus.Proofs.Decoder
import FieldCalculus.Proofs.Dict
import FieldCalculus.Proofs.Timestamp

/-!
Programs, values, exports and messages are read from their wire form as they were written,
whatever follows, and nothing is read from a part of a message. What can be written has
lengths that fit in 64 bits, as the lengths of all that is held in memory do, and
environments in increasing order of the names, as all environments are.
-/

namespace FieldCalculus

open Wire

/-! ## What can be written -/

mutual

/-- Whether all lengths in a program can be counted in 64 bits and all environments in it are
in order. -/
def Expr.isWritable : Expr → Bool
  | .literal v => Value.isWritable v
  | .var name | .sense name | .neighborSense name => isShort name
  | .selfId => true
  | .lambda code params body =>
    isShort code.text && (params.length < UInt64.size && params.all isShort) &&
      Expr.isWritable body
  | .apply function args =>
    Expr.isWritable function && (args.length < UInt64.size && Expr.areWritable args)
  | .letIn name v body => isShort name && Expr.isWritable v && Expr.isWritable body
  | .branch condition thenSide elseSide =>
    Expr.isWritable condition && Expr.isWritable thenSide && Expr.isWritable elseSide
  | .rep init var update => Expr.isWritable init && isShort var && Expr.isWritable update
  | .nbr body => Expr.isWritable body
  | .neighborFold default accumulator generator _ =>
    Expr.isWritable default && Expr.isWritable accumulator && Expr.isWritable generator

def Expr.areWritable : List Expr → Bool
  | [] => true
  | e :: rest => Expr.isWritable e && Expr.areWritable rest

/-- Whether all lengths in a value can be counted in 64 bits and all environments in it are
in order. -/
def Value.isWritable : Value → Bool
  | .unit | .bool _ | .number _ | .builtin _ => true
  | .text s => isShort s
  | .tuple items => items.length < UInt64.size && Value.areWritable items
  | .closure code params body env =>
    isShort code.text && (params.length < UInt64.size && params.all isShort) &&
      Expr.isWritable body && (env.length < UInt64.size && Value.areBound env) &&
        env.Pairwise fun a b => compare a.1 b.1 = .lt

def Value.areWritable : List Value → Bool
  | [] => true
  | v :: rest => Value.isWritable v && Value.areWritable rest

/-- Whether bindings can be written, names and values. -/
def Value.areBound : List (String × Value) → Bool
  | [] => true
  | (name, v) :: rest => isShort name && Value.isWritable v && Value.areBound rest

end

/-- Whether the code in a slot can be written. -/
def Slot.isWritable : Slot → Bool
  | .funCall _ code => isShort code.text
  | .nbr _ | .rep _ | .foldHood _ | .branch _ _ => true

/-- Whether an entry of an export can be written, path and value. -/
def Export.isEntryWritable (entry : Path × Value) : Bool :=
  entry.1.length < UInt64.size && entry.1.all Slot.isWritable && entry.2.isWritable

def Export.isWritable (e : Export) : Bool :=
  e.size < UInt64.size && e.toList.all Export.isEntryWritable

/-- Whether a message can be written, its time apart. -/
def Message.isWritable (m : Message) : Bool := isShort m.sender.name && m.exported.isWritable

namespace Wire

theorem exprs_eq (es : List Expr) : exprs es = es.flatMap expr := by
  induction es with
  | nil => rfl
  | cons e rest ih => rw [exprs, ih, List.flatMap_cons]

theorem values_eq (vs : List Value) : values vs = vs.flatMap value := by
  induction vs with
  | nil => rfl
  | cons v rest ih => rw [values, ih, List.flatMap_cons]

theorem bindings_eq (env : List (String × Value)) :
    bindings env = env.flatMap fun binding => text binding.1 ++ value binding.2 := by
  induction env with
  | nil => rfl
  | cons binding rest ih => rw [bindings, ih, List.flatMap_cons]

/-! ## Programs and values -/

-- The recursion is that of the syntax. The bound goes down with it, since each constructor
-- takes four bytes, and where it has reached zero there is nothing left to read.
mutual

theorem reads_expr : ∀ {e : Expr}, e.isWritable → ∀ bound, Reads bound (readExpr bound) (expr e) e
  | _, _, 0 => .unbounded _ _ _
  | .literal v, h, bound + 1 => by
      rw [readExpr, expr]
      exact .node (by decide) ((reads_value h bound).map Expr.literal)
  | .var name, h, bound + 1 => by
      rw [readExpr, expr]
      exact .node (by decide) ((Reads.text bound h).map Expr.var)
  | .sense name, h, bound + 1 => by
      rw [readExpr, expr]
      exact .node (by decide) ((Reads.text bound h).map Expr.sense)
  | .neighborSense name, h, bound + 1 => by
      rw [readExpr, expr]
      exact .node (by decide) ((Reads.text bound h).map Expr.neighborSense)
  | .selfId, _, bound + 1 => by
      rw [readExpr, expr]
      exact .leaf (by decide) (.pure _ _)
  | .lambda code params body, h, bound + 1 => by
      simp only [Expr.isWritable, Bool.and_eq_true, decide_eq_true_eq] at h
      obtain ⟨⟨hcode, hlength, hparams⟩, hbody⟩ := h
      rw [readExpr, expr, List.append_assoc, List.append_assoc]
      refine .node (by decide) ((Reads.text bound hcode).andThen ?_)
      refine (Reads.texts bound hlength hparams).andThen ?_
      exact (reads_expr hbody bound).map _
  | .apply function args, h, bound + 1 => by
      simp only [Expr.isWritable, Bool.and_eq_true, decide_eq_true_eq] at h
      obtain ⟨hfunction, hlength, hargs⟩ := h
      rw [readExpr, expr, List.append_assoc, List.append_assoc, exprs_eq]
      refine .node (by decide) ((reads_expr hfunction bound).andThen ?_)
      exact (Reads.list hlength (reads_exprs hargs bound)).map _
  | .letIn name v body, h, bound + 1 => by
      simp only [Expr.isWritable, Bool.and_eq_true] at h
      obtain ⟨⟨hname, hv⟩, hbody⟩ := h
      rw [readExpr, expr, List.append_assoc, List.append_assoc]
      refine .node (by decide) ((Reads.text bound hname).andThen ?_)
      refine (reads_expr hv bound).andThen ?_
      exact (reads_expr hbody bound).map _
  | .branch condition thenSide elseSide, h, bound + 1 => by
      simp only [Expr.isWritable, Bool.and_eq_true] at h
      obtain ⟨⟨hcondition, hthen⟩, helse⟩ := h
      rw [readExpr, expr, List.append_assoc, List.append_assoc]
      refine .node (by decide) ((reads_expr hcondition bound).andThen ?_)
      refine (reads_expr hthen bound).andThen ?_
      exact (reads_expr helse bound).map _
  | .rep init var update, h, bound + 1 => by
      simp only [Expr.isWritable, Bool.and_eq_true] at h
      obtain ⟨⟨hinit, hvar⟩, hupdate⟩ := h
      rw [readExpr, expr, List.append_assoc, List.append_assoc]
      refine .node (by decide) ((reads_expr hinit bound).andThen ?_)
      refine (Reads.text bound hvar).andThen ?_
      exact (reads_expr hupdate bound).map _
  | .nbr body, h, bound + 1 => by
      rw [Expr.isWritable] at h
      rw [readExpr, expr]
      exact .node (by decide) ((reads_expr h bound).map Expr.nbr)
  | .neighborFold default accumulator generator includeSelf, h, bound + 1 => by
      simp only [Expr.isWritable, Bool.and_eq_true] at h
      obtain ⟨⟨hdefault, haccumulator⟩, hgenerator⟩ := h
      rw [readExpr, expr, List.append_assoc, List.append_assoc, List.append_assoc]
      refine .node (by decide) ((reads_expr hdefault bound).andThen ?_)
      refine (reads_expr haccumulator bound).andThen ?_
      refine (reads_expr hgenerator bound).andThen ?_
      exact (Reads.bool bound includeSelf).map _

theorem reads_exprs : ∀ {es : List Expr}, Expr.areWritable es → ∀ bound, ∀ e ∈ es,
    Reads bound (readExpr bound) (expr e) e
  | [], _, _ => by
      intro e he
      cases he
  | first :: rest, h, bound => by
      rw [Expr.areWritable, Bool.and_eq_true] at h
      intro e he
      rcases List.mem_cons.mp he with heq | hrest
      · rw [heq]
        exact reads_expr h.1 bound
      · exact reads_exprs h.2 bound e hrest

theorem reads_value : ∀ {v : Value}, v.isWritable → ∀ bound,
    Reads bound (readValue bound) (value v) v
  | _, _, 0 => .unbounded _ _ _
  | .unit, _, bound + 1 => by
      rw [readValue, value]
      exact .leaf (by decide) (.pure _ _)
  | .bool b, _, bound + 1 => by
      rw [readValue, value]
      exact .node (by decide) ((Reads.bool bound b).map Value.bool)
  | .number n, _, bound + 1 => by
      have hword : Reads bound (readNat 8) (number n) n.bits.toNat := .nat bound n.bits.toNat_lt
      have hread := hword.map fun word => Value.number ⟨UInt64.ofNat word⟩
      rw [UInt64.ofNat_toNat] at hread
      rw [readValue, value]
      exact .node (by decide) hread
  | .text s, h, bound + 1 => by
      rw [readValue, value]
      exact .node (by decide) ((Reads.text bound h).map Value.text)
  | .tuple items, h, bound + 1 => by
      simp only [Value.isWritable, Bool.and_eq_true, decide_eq_true_eq] at h
      obtain ⟨hlength, hitems⟩ := h
      rw [readValue, value, List.append_assoc, values_eq]
      exact .node (by decide) ((Reads.list hlength (reads_values hitems bound)).map Value.tuple)
  | .builtin b, _, bound + 1 => by
      have htag : Reads bound (readNat 4) (tag 0) 0 := .nat bound (by decide)
      rw [readValue, value, List.append_assoc]
      exact .node (by decide) (htag.andThen ((Reads.builtin bound b).map Value.builtin))
  | .closure code params body env, h, bound + 1 => by
      simp only [Value.isWritable, Bool.and_eq_true, decide_eq_true_eq] at h
      obtain ⟨⟨⟨⟨hcode, hlength, hparams⟩, hbody⟩, hcount, hbound⟩, hordered⟩ := h
      have htag : Reads bound (readNat 4) (tag 1) 1 := .nat bound (by decide)
      have henv : Reads bound (readList do
            let name ← readText
            return (name, ← readValue bound)) (count env.length ++ bindings env) env := by
        rw [bindings_eq]
        exact .list hcount (reads_bindings hbound bound)
      -- Bindings in order are put back where they were.
      have hread := henv.map fun env => Value.closure code params body (Entries.insertAll [] env)
      rw [Entries.Ordered.insertAll_nil hordered] at hread
      simp only [readValue, value, List.append_assoc]
      refine .node (by decide) (htag.andThen ?_)
      refine (Reads.text bound hcode).andThen ?_
      refine (Reads.texts bound hlength hparams).andThen ?_
      exact (reads_expr hbody bound).andThen hread

theorem reads_values : ∀ {vs : List Value}, Value.areWritable vs → ∀ bound, ∀ v ∈ vs,
    Reads bound (readValue bound) (value v) v
  | [], _, _ => by
      intro v hv
      cases hv
  | first :: rest, h, bound => by
      rw [Value.areWritable, Bool.and_eq_true] at h
      intro v hv
      rcases List.mem_cons.mp hv with heq | hrest
      · rw [heq]
        exact reads_value h.1 bound
      · exact reads_values h.2 bound v hrest

theorem reads_bindings : ∀ {env : List (String × Value)}, Value.areBound env → ∀ bound,
    ∀ binding ∈ env, Reads bound (do
      let name ← readText
      return (name, ← readValue bound)) (text binding.1 ++ value binding.2) binding
  | [], _, _ => by
      intro binding hbinding
      cases hbinding
  | (name, v) :: rest, h, bound => by
      simp only [Value.areBound, Bool.and_eq_true] at h
      obtain ⟨⟨hname, hv⟩, hrest⟩ := h
      intro binding hbinding
      rcases List.mem_cons.mp hbinding with heq | hlater
      · rw [heq]
        exact (Reads.text bound hname).andThen ((reads_value hv bound).map _)
      · exact reads_bindings hrest bound binding hlater

end

/-! ## Exports -/

theorem reads_slot (bound : Nat) {s : Slot} (h : s.isWritable) :
    Reads bound readSlot (slot s) s := by
  rw [readSlot]
  cases s with
  | nbr i =>
      rw [slot]
      exact (Reads.readNode bound (by decide)).andThen ((Reads.index bound i).map Slot.nbr)
  | rep i =>
      rw [slot]
      exact (Reads.readNode bound (by decide)).andThen ((Reads.index bound i).map Slot.rep)
  | foldHood i =>
      rw [slot]
      exact (Reads.readNode bound (by decide)).andThen ((Reads.index bound i).map Slot.foldHood)
  | branch i taken =>
      rw [slot, List.append_assoc]
      refine (Reads.readNode bound (by decide)).andThen ((Reads.index bound i).andThen ?_)
      exact (Reads.bool bound taken).map _
  | funCall i code =>
      rw [slot, List.append_assoc]
      refine (Reads.readNode bound (by decide)).andThen ((Reads.index bound i).andThen ?_)
      exact (Reads.text bound h).map _

theorem reads_entry (bound : Nat) {entry : Path × Value} (h : Export.isEntryWritable entry) :
    Reads bound (do
      let path ← readList readSlot
      return (path, ← readValue bound)) (path entry.1 ++ value entry.2) entry := by
  simp only [Export.isEntryWritable, Bool.and_eq_true, decide_eq_true_eq, List.all_eq_true] at h
  obtain ⟨⟨hlength, hslots⟩, hvalue⟩ := h
  have hpath : Reads bound (readList readSlot) (path entry.1) entry.1 :=
    .list hlength fun s hs => reads_slot bound (hslots s hs)
  exact hpath.andThen ((reads_value hvalue bound).map _)

theorem reads_export (bound : Nat) {e : Export} (h : e.isWritable) :
    Reads bound (readExport bound) (exported e) e := by
  simp only [Export.isWritable, Bool.and_eq_true, decide_eq_true_eq, List.all_eq_true] at h
  obtain ⟨hsize, hentries⟩ := h
  have hlist : Reads bound (readList do
        let path ← readList readSlot
        return (path, ← readValue bound)) (exported e) e.toList :=
    .list hsize fun entry hentry => reads_entry bound (hentries entry hentry)
  have hread := hlist.map fun entries => (⟨Dict.ofList entries⟩ : Export)
  have hsame : (⟨Dict.ofList e.toList⟩ : Export) = e :=
    congrArg Export.mk (Dict.ofList_entries e.entries)
  rw [hsame] at hread
  exact hread

end Wire

/-! ## Messages -/

namespace Message

variable {m : Message}

theorem reads_read (bound : Nat) (hwritable : m.isWritable) (hplain : m.sentAt.IsPlain) :
    Reads bound (read bound) m.encode m := by
  rw [isWritable, Bool.and_eq_true] at hwritable
  obtain ⟨hsender, hexport⟩ := hwritable
  have hlength := Timestamp.length_text_le hplain
  have hbytes : 4 * m.sentAt.text.length < UInt64.size :=
    Nat.lt_of_le_of_lt (Nat.mul_le_mul_left 4 hlength) (by decide)
  have hround : Reads bound (readNat 8) (littleEndian 8 m.round.toNat) m.round.toNat :=
    .nat bound m.round.toNat_lt
  have hread := (reads_export bound hexport).map fun exported =>
    (⟨m.sender, m.round, m.sentAt, exported⟩ : Message)
  rw [read, encode, List.append_assoc, List.append_assoc]
  refine (Reads.text bound hsender).andThen (hround.andThen ?_)
  refine (Reads.text bound (isShort_ofList hbytes)).andThen ?_
  rw [String.toList_ofList, Timestamp.ofText?_text hplain, UInt64.ofNat_toNat]
  exact hread

/-- A message is read as it was written, whatever follows, and nothing is read from the
bytes of a message that stop early. -/
theorem decode_encode (hwritable : m.isWritable) (hplain : m.sentAt.IsPlain) :
    (∀ rest, decode (m.encode ++ rest) = .ok m) ∧
      ∀ front back, front ++ back = m.encode → back ≠ [] →
        ∃ error, decode front = .error error := by
  constructor
  case left =>
    intro rest
    have hread := reads_read ((m.encode ++ rest).length + 1) hwritable hplain
    obtain ⟨after, hwhole⟩ := hread.whole rest 0 (Nat.lt_succ_self _)
    rw [decode, hwhole]
  case right =>
    intro front back hsplit hback
    have hread := reads_read (front.length + 1) hwritable hplain
    obtain ⟨error, after, hcut⟩ := hread.cut front back 0 hsplit hback (Nat.lt_succ_self _)
    exact ⟨error, by rw [decode, hcut]⟩

/-- A message with every kind of slot but one, numbers out of the ordinary and a function with
what it captured. -/
def crowded : Message where
  sender := ⟨"sensor-7"⟩
  round := 3
  sentAt := ⟨1709164799, 250000000⟩
  exported := ⟨Dict.ofList [
    ([], .tuple [.number .infinity, .number .negativeZero, .number .nan, .builtin .mux]),
    ([.foldHood 0, .funCall 1 ⟨"λ"⟩], .closure ⟨"λ"⟩ ["x"]
      (.branch (.var "x") (.nbr .selfId) (.apply (.sense "temperature") [.literal (.bool true)]))
      [("a", .text "über"), ("b", .unit)]),
    ([.branch 2 false, .rep 0], .number 4)]⟩

theorem crowded_decode_encode : crowded.isWritable ∧ crowded.sentAt.IsPlain ∧
    (∀ rest, decode (crowded.encode ++ rest) = .ok crowded) ∧
      ∀ front back, front ++ back = crowded.encode → back ≠ [] →
        ∃ error, decode front = .error error := by
  have hwritable : crowded.isWritable := by decide +kernel
  have hplain : crowded.sentAt.IsPlain := by decide +kernel
  exact ⟨hwritable, hplain, decode_encode hwritable hplain⟩

end Message

end FieldCalculus
