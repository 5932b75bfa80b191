import FieldCalculus.Wire.Decode
import Mathlib.Algebra.Group.Nat.Defs

/-!
What it means that a decoder reads a string of bytes as something: it does so whatever
follows, leaving what follows, and it fails on every part of the bytes that stops early. The
rules put decoders together as the layout puts strings of bytes together.
-/

namespace FieldCalculus.Wire

/-- A decoder reads the bytes as `a`, as long as less than `bound` is left to read. -/
structure Reads {α : Type} (bound : Nat) (d : Decoder α) (bytes : Bytes) (a : α) : Prop where
  whole : ∀ rest nodes, (bytes ++ rest).length < bound →
    ∃ after, d ⟨bytes ++ rest, nodes⟩ = .ok a ⟨rest, after⟩
  cut : ∀ front back nodes, front ++ back = bytes → back ≠ [] → front.length < bound →
    ∃ error after, d ⟨front, nodes⟩ = .error error after

/-- A string of two parts is cut within the first part or after it. -/
theorem cut_cases {front back bytes more : Bytes} (h : front ++ back = bytes ++ more) :
    (∃ missing, missing ≠ [] ∧ front ++ missing = bytes) ∨
      ∃ seen, front = bytes ++ seen ∧ seen ++ back = more := by
  rcases List.append_eq_append_iff.mp h with ⟨missing, hfirst, hrest⟩ | ⟨seen, hfirst, hrest⟩
  · by_cases hnone : missing = []
    · rw [hnone, List.append_nil] at hfirst
      rw [hnone, List.nil_append] at hrest
      exact Or.inr ⟨[], by rw [List.append_nil, hfirst], hrest⟩
    · exact Or.inl ⟨missing, hnone, hfirst.symm⟩
  · exact Or.inr ⟨seen, hfirst, hrest.symm⟩

namespace Reads

variable {α β : Type} {bound inner : Nat} {d : Decoder α} {f : α → Decoder β}
  {bytes more : Bytes} {a : α} {b : β}

/-- Under no bound at all there is nothing to read. -/
theorem unbounded (d : Decoder α) (bytes : Bytes) (a : α) : Reads 0 d bytes a :=
  ⟨fun _ _ hlength => absurd hlength (Nat.not_lt_zero _),
    fun _ _ _ _ _ hlength => absurd hlength (Nat.not_lt_zero _)⟩

theorem pure (bound : Nat) (a : α) : Reads bound (Pure.pure a) [] a := by
  refine ⟨fun rest nodes _ => ⟨nodes, rfl⟩, ?_⟩
  intro front back nodes hsplit hback
  exact absurd (List.append_eq_nil_iff.mp hsplit).2 hback

/-- One part after another. What has been read may be taken off the bound. -/
theorem bind (h : Reads bound d bytes a) (hnext : Reads inner (f a) more b)
    (hbound : bound ≤ inner + bytes.length) : Reads bound (d >>= f) (bytes ++ more) b := by
  constructor
  case whole =>
    intro rest nodes hlength
    rw [List.append_assoc] at hlength ⊢
    obtain ⟨middle, hfirst⟩ := h.whole (more ++ rest) nodes hlength
    rw [List.length_append] at hlength
    obtain ⟨after, hsecond⟩ := hnext.whole rest middle (by omega)
    refine ⟨after, ?_⟩
    change EStateM.bind d f _ = _
    rw [EStateM.bind, hfirst]
    exact hsecond
  case cut =>
    intro front back nodes hsplit hback hlength
    change ∃ error after, EStateM.bind d f _ = _
    -- Either the first part is cut, or it is whole and the second part is cut.
    rcases cut_cases hsplit with ⟨missing, hmissing, hfirst⟩ | ⟨seen, rfl, hrest⟩
    · obtain ⟨error, after, hfail⟩ := h.cut front missing nodes hfirst hmissing hlength
      exact ⟨error, after, by rw [EStateM.bind, hfail]⟩
    · obtain ⟨middle, hfirst⟩ := h.whole seen nodes hlength
      rw [List.length_append] at hlength
      obtain ⟨error, after, hfail⟩ := hnext.cut seen back middle hrest hback (by omega)
      refine ⟨error, after, ?_⟩
      rw [EStateM.bind, hfirst]
      exact hfail

/-- One part after another, under one bound. -/
theorem andThen (h : Reads bound d bytes a) (hnext : Reads bound (f a) more b) :
    Reads bound (d >>= f) (bytes ++ more) b :=
  h.bind hnext (Nat.le_add_right _ _)

theorem last (h : Reads bound d bytes a) (hnext : Reads bound (f a) [] b) :
    Reads bound (d >>= f) bytes b := by
  have hdone := h.andThen hnext
  rwa [List.append_nil] at hdone

/-- The last part and what is made of all. -/
theorem map (h : Reads bound d bytes a) (g : α → β) :
    Reads bound (d >>= fun x => Pure.pure (g x)) bytes (g a) :=
  h.last (pure bound (g a))

end Reads

/-! ## Numbers -/

theorem length_littleEndian (width n : Nat) : (littleEndian width n).length = width := by
  induction width generalizing n with
  | zero => rfl
  | succ width ih => rw [littleEndian, List.length_cons, ih]

theorem ofLittleEndian_littleEndian {width n : Nat} (h : n < 256 ^ width) :
    ofLittleEndian (littleEndian width n) = n := by
  induction width generalizing n with
  | zero =>
      rw [Nat.pow_zero, Nat.lt_one_iff] at h
      rw [h]
      rfl
  | succ width ih =>
      have hbyte : (UInt8.ofNat (n % 256)).toNat = n % 256 :=
        UInt8.toNat_ofNat_of_lt' (Nat.mod_lt n (by decide))
      have hrest : n / 256 < 256 ^ width := by
        rw [Nat.div_lt_iff_lt_mul (by decide), ← Nat.pow_succ]
        exact h
      rw [littleEndian, ofLittleEndian, hbyte, ih hrest, Nat.mod_add_div]

namespace Reads

variable {bound n : Nat}

theorem takeBytes (bound : Nat) (bytes : Bytes) :
    Reads bound (Wire.takeBytes bytes.length) bytes bytes := by
  constructor
  case whole =>
    intro rest nodes _
    refine ⟨nodes, ?_⟩
    simp [Wire.takeBytes]
  case cut =>
    intro front back nodes hsplit hback _
    have hshort : front.length < bytes.length := by
      rw [← hsplit, List.length_append]
      have := List.length_pos_iff.mpr hback
      omega
    refine ⟨.unexpectedEnd, ⟨front, nodes⟩, ?_⟩
    rw [Wire.takeBytes]
    dsimp only
    rw [if_pos]
    rw [List.length_take]
    omega

theorem nat (bound : Nat) {width : Nat} (h : n < 256 ^ width) :
    Reads bound (readNat width) (littleEndian width n) n := by
  have htaken := takeBytes bound (littleEndian width n)
  rw [length_littleEndian] at htaken
  have hread := htaken.map ofLittleEndian
  rw [ofLittleEndian_littleEndian h] at hread
  exact hread

theorem count (bound : Nat) (h : n < UInt64.size) : Reads bound (readNat 8) (Wire.count n) n :=
  nat bound h

theorem bool (bound : Nat) (b : Bool) : Reads bound readBool (Wire.bool b) b := by
  cases b with
  | false =>
      have hread : Reads bound (readNat 1) (littleEndian 1 0) 0 := nat bound (by decide)
      exact hread.last (pure bound false)
  | true =>
      have hread : Reads bound (readNat 1) (littleEndian 1 1) 1 := nat bound (by decide)
      exact hread.last (pure bound true)

theorem index (bound : Nat) (i : UInt32) : Reads bound readIndex (littleEndian 4 i.toNat) i := by
  have hnumber : Reads bound (readNat 4) (littleEndian 4 i.toNat) i.toNat := nat bound i.toNat_lt
  have hread := hnumber.map UInt32.ofNat
  rw [UInt32.ofNat_toNat] at hread
  exact hread

theorem builtin (bound : Nat) (b : Builtin) : Reads bound readBuiltin (Wire.builtin b) b := by
  have hplace : Builtin.all.idxOf b < 256 ^ 4 := by
    cases b <;> decide
  have hfound : Builtin.all[Builtin.all.idxOf b]? = some b := by
    cases b <;> rfl
  rw [readBuiltin, Wire.builtin, tag]
  refine (nat bound hplace).last ?_
  rw [hfound]
  exact pure bound b

end Reads

/-! ## Texts -/

theorem toList_loop (bytes : ByteArray) (start : Nat) (seen : List UInt8) :
    ByteArray.toList.loop bytes start seen = seen.reverse ++ bytes.data.toList.drop start := by
  fun_induction ByteArray.toList.loop bytes start seen with
  | case1 start seen hlt ih =>
      have hnext : bytes.data.toList.drop start =
          bytes.get! start :: bytes.data.toList.drop (start + 1) := by
        have hlength : start < bytes.data.toList.length := by simpa using hlt
        rw [List.drop_eq_getElem_cons hlength]
        congr 1
        simp [ByteArray.get!, hlt]
      rw [ih, hnext, List.reverse_cons, List.append_assoc]
      rfl
  | case2 start seen hge =>
      have hnone : bytes.data.toList.drop start = [] :=
        List.drop_eq_nil_iff.mpr (by simpa using Nat.le_of_not_lt hge)
      rw [hnone, List.append_nil]

theorem toList_eq (bytes : ByteArray) : bytes.toList = bytes.data.toList := by
  rw [ByteArray.toList, toList_loop]
  rfl

/-- What stands for a text can be told to be that text. -/
theorem fromUTF8?_toUTF8 (s : String) :
    String.fromUTF8? ⟨s.toUTF8.toList.toArray⟩ = some s := by
  have hbytes : (⟨s.toUTF8.toList.toArray⟩ : ByteArray) = s.toUTF8 := by
    rw [toList_eq]
  rw [hbytes]
  exact dif_pos s.isValidUTF8

/-- Whether the length of a text in bytes can be written in front of it. -/
def isShort (s : String) : Bool := s.toUTF8.toList.length < UInt64.size

theorem length_utf8_le (cs : List Char) :
    (cs.flatMap String.utf8EncodeChar).length ≤ 4 * cs.length := by
  induction cs with
  | nil => exact Nat.zero_le _
  | cons c rest ih =>
      have hchar := c.utf8Size_le_four
      rw [List.flatMap_cons, List.length_append, String.length_utf8EncodeChar, List.length_cons]
      omega

/-- No character takes more than four bytes. -/
theorem isShort_ofList {cs : List Char} (h : 4 * cs.length < UInt64.size) :
    isShort (String.ofList cs) := by
  have hbytes : (String.ofList cs).toUTF8.toList = cs.flatMap String.utf8EncodeChar := by
    rw [toList_eq, String.toUTF8, String.toByteArray_ofList, List.utf8Encode,
      List.data_toByteArray]
  rw [isShort, hbytes, decide_eq_true_eq]
  exact Nat.lt_of_le_of_lt (length_utf8_le cs) h

namespace Reads

variable {bound : Nat}

theorem text (bound : Nat) {s : String} (h : isShort s) : Reads bound readText (Wire.text s) s := by
  have h : s.toUTF8.toList.length < UInt64.size := of_decide_eq_true h
  rw [readText, Wire.text]
  refine (count bound h).andThen ((takeBytes bound s.toUTF8.toList).last ?_)
  rw [fromUTF8?_toUTF8]
  exact pure bound s

end Reads

/-! ## Constructors -/

namespace Reads

variable {α : Type} {bound n : Nat} {f : Nat → Decoder α} {bytes : Bytes} {a : α}

theorem readNode (bound : Nat) (h : n < 256 ^ 4) : Reads bound Wire.readNode (tag n) n := by
  have hread : Reads bound (readNat 4) (tag n) n := nat bound h
  refine ⟨fun rest nodes hlength => hread.whole rest (nodes + 1) hlength, ?_⟩
  exact fun front back nodes hsplit hback hlength =>
    hread.cut front back (nodes + 1) hsplit hback hlength

/-- A constructor with fields, which are read within a bound that is one less. -/
theorem node (h : n < 256 ^ 4) (hfields : Reads bound (f n) bytes a) :
    Reads (bound + 1) (Wire.readNode >>= f) (tag n ++ bytes) a := by
  refine (readNode (bound + 1) h).bind hfields ?_
  rw [tag, length_littleEndian]
  omega

theorem leaf (h : n < 256 ^ 4) (hdone : Reads bound (f n) [] a) :
    Reads bound (Wire.readNode >>= f) (tag n) a :=
  (readNode bound h).last hdone

end Reads

/-! ## Lists -/

namespace Reads

variable {α : Type} {bound : Nat} {item : Decoder α} {bytesOf : α → Bytes} {items : List α}

theorem many (h : ∀ a ∈ items, Reads bound item (bytesOf a) a) :
    Reads bound (readMany item items.length) (items.flatMap bytesOf) items := by
  induction items with
  | nil => exact pure bound []
  | cons a rest ih =>
      have hrest := ih fun other hother => h other (List.mem_cons_of_mem _ hother)
      rw [List.length_cons, readMany, List.flatMap_cons]
      exact (h a List.mem_cons_self).andThen (hrest.map (a :: ·))

theorem list (hlength : items.length < UInt64.size)
    (h : ∀ a ∈ items, Reads bound item (bytesOf a) a) :
    Reads bound (readList item) (Wire.count items.length ++ items.flatMap bytesOf) items :=
  (count bound hlength).andThen (many h)

theorem texts {names : List String} (bound : Nat) (hlength : names.length < UInt64.size)
    (h : names.all isShort) : Reads bound (readList readText) (Wire.texts names) names :=
  list hlength fun s hs => text bound (List.all_eq_true.mp h s hs)

end Reads

end FieldCalculus.Wire
