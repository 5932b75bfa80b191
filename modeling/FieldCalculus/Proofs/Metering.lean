import FieldCalculus.Proofs.Wire
import Mathlib.Algebra.Group.Nat.Defs

/-!
What reading costs the sender. Every program, value and slot that a decoder begins is paid for
with the four bytes of its tag, whatever lengths the bytes declare, so that a message is made of
at most a fourth as many nodes as it has bytes, and no more than that are begun where nothing can
be read. The bound on the nesting is above what so many bytes can nest, and never decides anything.
-/

namespace FieldCalculus

/-! ## Nodes -/

mutual

/-- How many programs and values a program is made of, itself and what literals hold included. -/
def Expr.weight : Expr → Nat
  | .literal v => 1 + Value.weight v
  | .var _ | .sense _ | .neighborSense _ | .selfId => 1
  | .lambda _ _ body => 1 + Expr.weight body
  | .apply function args => 1 + Expr.weight function + Expr.weightAll args
  | .letIn _ value body => 1 + Expr.weight value + Expr.weight body
  | .branch condition thenSide elseSide =>
    1 + Expr.weight condition + Expr.weight thenSide + Expr.weight elseSide
  | .rep init _ update => 1 + Expr.weight init + Expr.weight update
  | .nbr body => 1 + Expr.weight body
  | .neighborFold default accumulator generator _ =>
    1 + Expr.weight default + Expr.weight accumulator + Expr.weight generator

def Expr.weightAll : List Expr → Nat
  | [] => 0
  | e :: rest => Expr.weight e + Expr.weightAll rest

/-- How many programs and values a value is made of, itself and what closures hold included. -/
def Value.weight : Value → Nat
  | .unit | .bool _ | .number _ | .text _ | .builtin _ => 1
  | .tuple items => 1 + Value.weightAll items
  | .closure _ _ body env => 1 + Expr.weight body + Value.weightEnv env

def Value.weightAll : List Value → Nat
  | [] => 0
  | v :: rest => Value.weight v + Value.weightAll rest

def Value.weightEnv : List (String × Value) → Nat
  | [] => 0
  | (_, v) :: rest => Value.weight v + Value.weightEnv rest

end

/-- What the items of a list weigh together. -/
def weighAll {α : Type} (weight : α → Nat) : List α → Nat
  | [] => 0
  | a :: rest => weight a + weighAll weight rest

theorem Expr.weightAll_eq (es : List Expr) : Expr.weightAll es = weighAll Expr.weight es := by
  induction es with
  | nil => rfl
  | cons e rest ih => rw [Expr.weightAll, weighAll, ih]

theorem Value.weightAll_eq (vs : List Value) : Value.weightAll vs = weighAll Value.weight vs := by
  induction vs with
  | nil => rfl
  | cons v rest ih => rw [Value.weightAll, weighAll, ih]

theorem Value.weightEnv_eq (env : Env) :
    Value.weightEnv env = weighAll (fun binding => binding.2.weight) env := by
  induction env with
  | nil => rfl
  | cons binding rest ih => rw [Value.weightEnv, weighAll, ih]

/-- The slots of an entry's path and the nodes of its value. -/
def Export.entryWeight (entry : Path × Value) : Nat := entry.1.length + entry.2.weight

/-- How many slots, programs and values an export is made of. -/
def Export.weight (e : Export) : Nat := weighAll Export.entryWeight e.toList

def Message.weight (m : Message) : Nat := m.exported.weight

section Entries

variable {κ ν : Type} [Ord κ] (weight : κ × ν → Nat)

/-- What is stored in place of something else weighs no more than what is added. -/
theorem weighAll_insert (key : κ) (value : ν) (entries : List (κ × ν)) :
    weighAll weight (Entries.insert key value entries) ≤
      weight (key, value) + weighAll weight entries := by
  induction entries with
  | nil => exact Nat.le_refl _
  | cons entry rest ih =>
      obtain ⟨k, v⟩ := entry
      unfold Entries.insert
      split <;> simp only [weighAll] at ih ⊢ <;> omega

theorem weighAll_insertAll (entries pairs : List (κ × ν)) :
    weighAll weight (Entries.insertAll entries pairs) ≤
      weighAll weight entries + weighAll weight pairs := by
  induction pairs generalizing entries with
  | nil => exact Nat.le_refl _
  | cons pair rest ih =>
      obtain ⟨key, value⟩ := pair
      have hfirst := weighAll_insert weight key value entries
      have hrest := ih (Entries.insert key value entries)
      rw [weighAll]
      exact Nat.le_trans hrest (by omega)

end Entries

namespace Wire

/-! ## Metered decoders -/

/-- What reading from a cursor comes to is paid for: each node begun has cost four bytes, but for
the tag that the bytes may end in, and what was read weighs no more than the nodes that were begun
for it and the `credit` of those begun before. -/
def Paid {α : Type} (credit : Nat) (weight : α → Nat) (c : Cursor) :
    EStateM.Result DecodeError Cursor α → Prop
  | .ok a after => c.nodes ≤ after.nodes ∧ c.nodes + weight a ≤ after.nodes + credit ∧
    4 * after.nodes + after.rest.length ≤ 4 * c.nodes + c.rest.length
  | .error _ after => 4 * after.nodes + after.rest.length ≤ 4 * c.nodes + c.rest.length + 4

/-- How many nodes were begun where a decoder ended. -/
def begun {α : Type} : EStateM.Result DecodeError Cursor α → Nat
  | .ok _ after | .error _ after => after.nodes

theorem Paid.begun_le {α : Type} {credit : Nat} {weight : α → Nat} {c : Cursor}
    {result : EStateM.Result DecodeError Cursor α} (h : Paid credit weight c result) :
    4 * begun result ≤ 4 * c.nodes + c.rest.length + 4 := by
  cases result with
  | ok a after =>
      obtain ⟨-, -, hcost⟩ := h
      rw [begun]
      omega
  | error error after =>
      unfold Paid at h
      rw [begun]
      omega

/-- With less than `bound` bytes left, the second decoder does the same as the first, and it is
paid for. -/
def Metered {α : Type} (bound credit : Nat) (d d' : Decoder α) (weight : α → Nat) : Prop :=
  ∀ c : Cursor, c.rest.length < bound → d' c = d c ∧ Paid credit weight c (d c)

namespace Metered

variable {α β : Type} {bound credit : Nat} {d d' : Decoder α} {f f' : α → Decoder β}
  {weight : α → Nat} {weight' : β → Nat}

/-- Less than no bytes are never left. -/
theorem unread : Metered 0 credit d d' weight := fun _ hlength => absurd hlength (Nat.not_lt_zero _)

theorem pure {a : α} (h : weight a ≤ credit) :
    Metered bound credit (Pure.pure a) (Pure.pure a) weight :=
  fun _ _ => ⟨rfl, Nat.le_refl _, Nat.add_le_add_left h _, Nat.le_refl _⟩

theorem throw (error : DecodeError) :
    Metered bound credit (MonadExcept.throw error) (MonadExcept.throw error) weight :=
  fun _ _ => ⟨rfl, Nat.le_add_right _ _⟩

theorem mono (h : Metered bound credit d d' weight) {less : α → Nat}
    (hless : ∀ a, less a ≤ weight a) : Metered bound credit d d' less := by
  intro c hlength
  obtain ⟨hsame, hpaid⟩ := h c hlength
  refine ⟨hsame, ?_⟩
  cases hresult : d c with
  | error error after =>
      rw [hresult] at hpaid
      exact hpaid
  | ok a after =>
      rw [hresult] at hpaid
      obtain ⟨hbegun, hweight, hcost⟩ := hpaid
      exact ⟨hbegun, Nat.le_trans (Nat.add_le_add_left (hless a) _) hweight, hcost⟩

/-- What was read first is credited to what is made of it. -/
theorem bind (h : Metered bound 0 d d' weight)
    (hnext : ∀ a, Metered bound (credit + weight a) (f a) (f' a) weight') :
    Metered bound credit (d >>= f) (d' >>= f') weight' := by
  intro c hlength
  obtain ⟨hsame, hpaid⟩ := h c hlength
  change EStateM.bind d' f' c = EStateM.bind d f c ∧ Paid credit weight' c (EStateM.bind d f c)
  unfold EStateM.bind
  rw [hsame]
  cases hresult : d c with
  | error error after =>
      rw [hresult] at hpaid
      exact ⟨rfl, hpaid⟩
  | ok a after =>
      rw [hresult] at hpaid
      obtain ⟨hbegun, hweight, hcost⟩ := hpaid
      obtain ⟨hsame', hpaid'⟩ := hnext a after (by omega)
      refine ⟨hsame', ?_⟩
      dsimp only
      cases hresult' : f a after with
      | error error last =>
          rw [hresult'] at hpaid'
          unfold Paid at hpaid' ⊢
          omega
      | ok b last =>
          rw [hresult'] at hpaid'
          obtain ⟨hbegun', hweight', hcost'⟩ := hpaid'
          exact ⟨by omega, by omega, by omega⟩

/-- The last part and what is made of all. -/
theorem map (h : Metered bound 0 d d' weight) {g : α → β}
    (hweight : ∀ a, weight' (g a) ≤ credit + weight a) :
    Metered bound credit (d >>= fun a => Pure.pure (g a)) (d' >>= fun a => Pure.pure (g a))
      weight' :=
  h.bind fun a => .pure (hweight a)

end Metered

/-! ## Parts without nodes -/

/-- A decoder that begins no nodes. -/
abbrev Free {α : Type} (bound : Nat) (d : Decoder α) : Prop := Metered bound 0 d d fun _ => 0

/-- What begins no nodes leaves the credit as it was. -/
theorem Free.next {α β : Type} {bound credit : Nat} {d : Decoder α} {f f' : α → Decoder β}
    {weight : β → Nat} (h : Free bound d) (hnext : ∀ a, Metered bound credit (f a) (f' a) weight) :
    Metered bound credit (d >>= f) (d >>= f') weight :=
  Metered.bind h hnext

theorem takeBytes_of_lt {n : Nat} {c : Cursor} (h : c.rest.length < n) :
    takeBytes n c = .error .unexpectedEnd c := by
  rw [takeBytes, List.length_take, if_pos (by omega)]

theorem takeBytes_of_le {n : Nat} {c : Cursor} (h : n ≤ c.rest.length) :
    takeBytes n c = .ok (c.rest.take n) { c with rest := c.rest.drop n } := by
  rw [takeBytes, List.length_take, if_neg (by omega)]

theorem free_takeBytes (bound n : Nat) : Free bound (takeBytes n) := by
  intro c _
  refine ⟨rfl, ?_⟩
  rcases Nat.lt_or_ge c.rest.length n with hshort | hlong
  · rw [takeBytes_of_lt hshort]
    exact Nat.le_add_right _ _
  · rw [takeBytes_of_le hlong]
    refine ⟨Nat.le_refl _, Nat.le_refl _, ?_⟩
    rw [List.length_drop]
    exact Nat.add_le_add_left (Nat.sub_le _ _) _

theorem free_readNat (bound width : Nat) : Free bound (readNat width) :=
  (free_takeBytes bound width).map fun _ => Nat.le_refl _

theorem free_readBool (bound : Nat) : Free bound readBool :=
  (free_readNat bound 1).bind fun n => match n with
    | 0 => .pure (Nat.le_refl _)
    | 1 => .pure (Nat.le_refl _)
    | _ + 2 => .throw _

theorem free_readText (bound : Nat) : Free bound readText := by
  refine (free_readNat bound 8).bind fun n => (free_takeBytes bound n).bind fun bytes => ?_
  split
  · exact .pure (Nat.le_refl _)
  · exact .throw _

theorem free_readBuiltin (bound : Nat) : Free bound readBuiltin := by
  refine (free_readNat bound 4).bind fun n => ?_
  split
  · exact .pure (Nat.le_refl _)
  · exact .throw _

theorem free_readIndex (bound : Nat) : Free bound readIndex :=
  (free_readNat bound 4).map fun _ => Nat.le_refl _

/-! ## Nodes and lists of them -/

namespace Metered

variable {α : Type} {bound credit : Nat} {item item' : Decoder α} {f f' : Nat → Decoder α}
  {weight : α → Nat}

theorem readNode_of_lt {c : Cursor} (h : c.rest.length < 4) :
    readNode c = .error .unexpectedEnd { c with nodes := c.nodes + 1 } := by
  have hend : takeBytes 4 ⟨c.rest, c.nodes + 1⟩ = .error .unexpectedEnd ⟨c.rest, c.nodes + 1⟩ :=
    takeBytes_of_lt h
  change EStateM.bind (takeBytes 4) _ ⟨c.rest, c.nodes + 1⟩ = _
  rw [EStateM.bind, hend]

theorem readNode_of_le {c : Cursor} (h : 4 ≤ c.rest.length) :
    readNode c = .ok (ofLittleEndian (c.rest.take 4)) ⟨c.rest.drop 4, c.nodes + 1⟩ := by
  have htag : takeBytes 4 ⟨c.rest, c.nodes + 1⟩ =
      .ok (c.rest.take 4) ⟨c.rest.drop 4, c.nodes + 1⟩ := takeBytes_of_le h
  change EStateM.bind (takeBytes 4) _ ⟨c.rest, c.nodes + 1⟩ = _
  rw [EStateM.bind, htag]
  rfl

/-- The tag of a node pays for it, and fewer bytes are left for its fields. -/
theorem node (h : ∀ n, Metered bound (credit + 1) (f n) (f' n) weight) :
    Metered (bound + 1) credit (readNode >>= f) (readNode >>= f') weight := by
  intro c hlength
  change EStateM.bind readNode f' c = EStateM.bind readNode f c ∧
    Paid credit weight c (EStateM.bind readNode f c)
  unfold EStateM.bind
  rcases Nat.lt_or_ge c.rest.length 4 with hshort | hlong
  · rw [readNode_of_lt hshort]
    refine ⟨rfl, ?_⟩
    unfold Paid
    dsimp only
    omega
  · rw [readNode_of_le hlong]
    have hleft : (c.rest.drop 4).length = c.rest.length - 4 := List.length_drop
    obtain ⟨hsame, hpaid⟩ := h (ofLittleEndian (c.rest.take 4)) ⟨c.rest.drop 4, c.nodes + 1⟩
      (by dsimp only; omega)
    refine ⟨hsame, ?_⟩
    dsimp only
    cases hresult : f (ofLittleEndian (c.rest.take 4)) ⟨c.rest.drop 4, c.nodes + 1⟩ with
    | error error after =>
        rw [hresult] at hpaid
        unfold Paid at hpaid ⊢
        dsimp only at hpaid
        omega
    | ok a after =>
        rw [hresult] at hpaid
        obtain ⟨hbegun, hweight, hcost⟩ := hpaid
        dsimp only at hbegun hweight hcost
        exact ⟨by omega, by omega, by omega⟩

theorem many (h : Metered bound 0 item item' weight) (n : Nat) :
    Metered bound 0 (readMany item n) (readMany item' n) (weighAll weight) := by
  induction n with
  | zero => exact .pure (Nat.le_refl _)
  | succ n ih =>
      rw [readMany, readMany]
      refine h.bind fun a => ih.map fun rest => ?_
      rw [Nat.zero_add]
      exact Nat.le_refl _

/-- However many items are declared, each one costs what it weighs. -/
theorem list (h : Metered bound 0 item item' weight) :
    Metered bound 0 (readList item) (readList item') (weighAll weight) :=
  (free_readNat bound 8).bind fun n => h.many n

/-- A length that is declared beyond the bytes that are left makes no difference: items that weigh
anything take bytes, and the first one that is missing ends the reading. -/
theorem readMany_of_lt (h : Metered bound 0 item item' weight) (hcost : ∀ a, 0 < weight a)
    {n m : Nat} {c : Cursor} (hbound : c.rest.length < bound) (hn : c.rest.length < n)
    (hm : c.rest.length < m) : readMany item n c = readMany item m c := by
  induction n generalizing m c with
  | zero => exact absurd hn (Nat.not_lt_zero _)
  | succ n ih =>
      cases m with
      | zero => exact absurd hm (Nat.not_lt_zero _)
      | succ m =>
          change EStateM.bind item _ c = EStateM.bind item _ c
          unfold EStateM.bind
          obtain ⟨-, hpaid⟩ := h c hbound
          cases hresult : item c with
          | error error after => rfl
          | ok a after =>
              rw [hresult] at hpaid
              obtain ⟨hbegun, hweight, hcost'⟩ := hpaid
              have hpositive := hcost a
              have hrest := ih (m := m) (c := after) (by omega) (by omega) (by omega)
              dsimp only
              change EStateM.bind (readMany item n) _ after = EStateM.bind (readMany item m) _ after
              rw [EStateM.bind, EStateM.bind, hrest]

end Metered

theorem free_texts (bound : Nat) : Free bound (readList readText) :=
  (free_readText bound).list.mono fun _ => Nat.zero_le _

/-- What a value weighs is what its binding weighs. -/
theorem Metered.binding {bound : Nat} {value value' : Decoder Value}
    (h : Metered bound 0 value value' Value.weight) :
    Metered bound 0 (do let name ← readText; return (name, ← value))
      (do let name ← readText; return (name, ← value')) fun binding => binding.2.weight :=
  (free_readText bound).bind fun _ => h.map fun v => Nat.le_of_eq (Nat.zero_add v.weight).symm

/-! ## Programs and values -/

/-- The bound on the nesting is never met by what is read within it, and each program and each
value is paid for. -/
theorem metered_parts (more bound : Nat) :
    Metered bound 0 (readExpr bound) (readExpr (more + bound)) Expr.weight ∧
      Metered bound 0 (readValue bound) (readValue (more + bound)) Value.weight := by
  induction bound with
  | zero => exact ⟨.unread, .unread⟩
  | succ bound ih =>
      obtain ⟨hexpr, hvalue⟩ := ih
      constructor
      case left =>
        change Metered _ _ (readExpr (bound + 1)) (readExpr (more + bound + 1)) _
        rw [readExpr, readExpr]
        refine .node fun n => ?_
        match n with
        | 0 => exact hvalue.map fun v => by simp only [Expr.weight]; omega
        | 1 => exact (free_readText bound).map fun _ => Nat.le_refl _
        | 2 => exact (free_readText bound).map fun _ => Nat.le_refl _
        | 3 => exact (free_readText bound).map fun _ => Nat.le_refl _
        | 4 => exact .pure (Nat.le_refl _)
        | 5 =>
          refine (free_readText bound).bind fun code => (free_texts bound).bind fun params => ?_
          exact hexpr.map fun body => by simp only [Expr.weight]; omega
        | 6 =>
          refine hexpr.bind fun function => hexpr.list.map fun args => ?_
          have hargs := Expr.weightAll_eq args
          simp only [Expr.weight]
          omega
        | 7 =>
          refine (free_readText bound).bind fun name => hexpr.bind fun value => ?_
          exact hexpr.map fun body => by simp only [Expr.weight]; omega
        | 8 =>
          refine hexpr.bind fun condition => hexpr.bind fun thenSide => ?_
          exact hexpr.map fun elseSide => by simp only [Expr.weight]; omega
        | 9 =>
          refine hexpr.bind fun init => (free_readText bound).bind fun var => ?_
          exact hexpr.map fun update => by simp only [Expr.weight]; omega
        | 10 => exact hexpr.map fun body => by simp only [Expr.weight]; omega
        | 11 =>
          refine hexpr.bind fun default => hexpr.bind fun accumulator => ?_
          refine hexpr.bind fun generator => (free_readBool bound).map fun includeSelf => ?_
          simp only [Expr.weight]
          omega
        | _ + 12 => exact .throw _
      case right =>
        change Metered _ _ (readValue (bound + 1)) (readValue (more + bound + 1)) _
        rw [readValue, readValue]
        refine .node fun n => ?_
        match n with
        | 0 => exact .pure (Nat.le_refl _)
        | 1 => exact (free_readBool bound).map fun _ => Nat.le_refl _
        | 2 => exact (free_readNat bound 8).map fun _ => Nat.le_refl _
        | 3 => exact (free_readText bound).map fun _ => Nat.le_refl _
        | 4 =>
          refine hvalue.list.map fun items => ?_
          have hitems := Value.weightAll_eq items
          simp only [Value.weight]
          omega
        | 5 =>
          refine (free_readNat bound 4).bind fun kind => ?_
          match kind with
          | 0 => exact (free_readBuiltin bound).map fun _ => Nat.le_refl _
          | 1 =>
            refine (free_readText bound).bind fun code => (free_texts bound).bind fun params => ?_
            refine hexpr.bind fun body => hvalue.binding.list.map fun env => ?_
            have henv := weighAll_insertAll (fun entry : String × Value => entry.2.weight) [] env
            rw [Value.weight, Value.weightEnv_eq]
            rw [weighAll] at henv
            omega
          | _ + 2 => exact .throw _
        | _ + 6 => exact .throw _

/-! ## Messages -/

theorem metered_slot (bound : Nat) :
    Metered (bound + 1) 0 readSlot readSlot fun _ => 1 := by
  have hindex := free_readIndex bound
  refine .node fun n => ?_
  match n with
  | 0 => exact hindex.map fun _ => Nat.le_refl _
  | 1 => exact hindex.map fun _ => Nat.le_refl _
  | 2 => exact hindex.map fun _ => Nat.le_refl _
  | 3 => exact hindex.bind fun _ => (free_readBool bound).map fun _ => Nat.le_refl _
  | 4 => exact hindex.bind fun _ => (free_readText bound).map fun _ => Nat.le_refl _
  | _ + 5 => exact .throw _

/-- Each slot of a path weighs one. -/
theorem weighAll_one {α : Type} (items : List α) :
    weighAll (fun _ => 1) items = items.length := by
  induction items with
  | nil => rfl
  | cons a rest ih => rw [weighAll, ih, List.length_cons, Nat.add_comm]

theorem metered_export (more bound : Nat) :
    Metered (bound + 1) 0 (readExport (bound + 1)) (readExport (more + (bound + 1)))
      Export.weight := by
  have hpath := (metered_slot bound).list
  have hvalue := (metered_parts more (bound + 1)).right
  have hentry : Metered (bound + 1) 0
      (do let path ← readList readSlot; return (path, ← readValue (bound + 1)))
      (do let path ← readList readSlot; return (path, ← readValue (more + (bound + 1))))
      Export.entryWeight := by
    refine hpath.bind fun path => hvalue.map fun v => ?_
    rw [weighAll_one, Export.entryWeight]
    dsimp only
    omega
  rw [readExport, readExport]
  refine hentry.list.map fun entries => ?_
  have hkept := weighAll_insertAll Export.entryWeight [] entries
  rw [weighAll] at hkept
  exact hkept

end Wire

namespace Message

open Wire

theorem metered_read (more bound : Nat) :
    Metered (bound + 1) 0 (read (bound + 1)) (read (more + (bound + 1))) Message.weight := by
  rw [read, read]
  refine (free_readText _).next fun sender => (free_readNat _ 8).next fun round => ?_
  refine (free_readText _).next fun written => ?_
  have hsent (sentAt : Timestamp) := (metered_export more bound).map
    (fun e => Nat.le_add_left (Message.weight ⟨⟨sender⟩, UInt64.ofNat round, sentAt, e⟩) 0)
  cases Timestamp.ofText? written.toList with
  | none => exact Free.next (.throw _) hsent
  | some t => exact Free.next (.pure (Nat.le_refl 0)) hsent

/-- A message that is decoded is made of at most a fourth as many slots, programs and values as it
had bytes. Whatever the bytes are, at most one more than that are begun, and to allow for more
nesting than there are bytes makes no difference. -/
theorem decode_bounded (bytes : Bytes) :
    (∀ m, decode bytes = .ok m → 4 * m.weight ≤ bytes.length) ∧
      ∀ depth, bytes.length < depth → read depth ⟨bytes, 0⟩ = read (bytes.length + 1) ⟨bytes, 0⟩ ∧
        begun (read depth ⟨bytes, 0⟩) ≤ bytes.length / 4 + 1 := by
  have hmetered (more : Nat) := metered_read more bytes.length ⟨bytes, 0⟩ (Nat.lt_succ_self _)
  obtain ⟨-, hpaid⟩ := hmetered 0
  constructor
  case left =>
    intro m hdecode
    rw [decode] at hdecode
    cases hresult : read (bytes.length + 1) ⟨bytes, 0⟩ with
    | error error after =>
        rw [hresult] at hdecode
        cases hdecode
    | ok found after =>
        rw [hresult] at hdecode hpaid
        cases hdecode
        obtain ⟨-, hweight, hcost⟩ := hpaid
        dsimp only at hweight hcost
        omega
  case right =>
    intro depth hdepth
    obtain ⟨more, rfl⟩ := Nat.exists_eq_add_of_le' hdepth
    obtain ⟨hsame, -⟩ := hmetered more
    have hbegun := hpaid.begun_le
    dsimp only at hbegun
    exact ⟨hsame, by rw [hsame]; omega⟩

/-- A closure that has captured a tuple, two slots below the root. -/
def enclosing : Message where
  sender := ⟨"sensor-7"⟩
  round := 3
  sentAt := ⟨1709164799, 250000000⟩
  exported := ⟨Dict.ofList [([.foldHood 0, .branch 1 true],
    .closure ⟨"c0"⟩ ["x"] (.apply (.var "x") [.literal .unit])
      [("k", .tuple [.bool true, .text "y"])])]⟩

/-- Bytes that declare as many entries and as many slots of the first path as can be written, and
end within the first slot. -/
def boastful : Bytes :=
  text "" ++ littleEndian 8 0 ++ text "2024-02-28T23:59:59Z" ++ List.replicate 16 255 ++ [0, 0]

theorem enclosing_decode_bounded :
    decode enclosing.encode = .ok enclosing ∧ enclosing.weight = 10 ∧
      4 * enclosing.weight ≤ enclosing.encode.length ∧
      boastful.length < UInt64.size ∧ begun (read UInt64.size ⟨boastful, 0⟩) ≤ 16 := by
  have hfacts : (enclosing.isWritable ∧ enclosing.sentAt.IsPlain) ∧ enclosing.weight = 10 ∧
      boastful.length = 62 := by decide +kernel
  obtain ⟨⟨hwritable, hplain⟩, hweight, hlength⟩ := hfacts
  have hread := reads_read (enclosing.encode.length + 1) hwritable hplain
  obtain ⟨after, hwhole⟩ := hread.whole [] 0 (by rw [List.append_nil]; exact Nat.lt_succ_self _)
  have hdecode : decode enclosing.encode = .ok enclosing := by
    rw [List.append_nil] at hwhole
    rw [decode, hwhole]
  have hshort : boastful.length < UInt64.size := by rw [hlength]; decide
  have hbounded := (decode_bounded enclosing.encode).left _ hdecode
  obtain ⟨-, hbegun⟩ := (decode_bounded boastful).right UInt64.size hshort
  rw [hlength] at hbegun
  exact ⟨hdecode, hweight, hbounded, hshort, hbegun⟩

end Message

end FieldCalculus
