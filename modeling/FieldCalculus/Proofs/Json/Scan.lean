import FieldCalculus.Json.Print
import FieldCalculus.Json.Token
import FieldCalculus.Proofs.Numerals
import Mathlib.Tactic.IntervalCases

/-!
The tokens of printed texts. The front of a text is scanned as tokens if these come before the
tokens of whatever follows; so the tokens of a text are put together as the text is. What
follows a number must not be a character that the number could go on with.
-/

namespace FieldCalculus.Json

open Text

/-! ## Texts between quotes -/

namespace Token

section Quoted

variable {fuel : Nat} {rest : List Char}

theorem hexValue?_digitChar : ∀ d < 16, hexValue? (Nat.digitChar d) = some d := by decide

/-- The digits of a control character are read as its code. -/
theorem unit?_control {n : Nat} (hn : n < 0x20) (rest : List Char) :
    unit? ('0' :: '0' :: Nat.digitChar (n / 16) :: Nat.digitChar (n % 16) :: rest) =
      some (n, rest) := by
  have hzero : hexValue? '0' = some 0 := rfl
  have hhigh := hexValue?_digitChar (n / 16) (by omega)
  have hlow := hexValue?_digitChar (n % 16) (by omega)
  have hcode : 4096 * 0 + 256 * 0 + 16 * (n / 16) + n % 16 = n := by omega
  simp only [unit?, hzero, hhigh, hlow, Option.bind_eq_bind, Option.bind_some, hcode]

theorem text?_backslash {c : Char} {after : List Char} (h : escaped? rest = some (some c, after)) :
    text? (fuel + 1) ('\\' :: rest) =
      (text? fuel after).map fun (cs, rest) => (cs.map (c :: ·), rest) := by
  rw [text?, h]
  dsimp only [Option.bind_eq_bind, Option.bind_some]
  cases text? fuel after with
  | none => rfl
  | some read =>
      obtain ⟨cs, rest⟩ := read
      cases cs <;> rfl

/-- Every character is read back from what is written for it. -/
theorem text?_escape (fuel : Nat) (c : Char) (rest : List Char) :
    text? (fuel + 1) (escape c ++ rest) =
      (text? fuel rest).map fun (cs, rest) => (cs.map (c :: ·), rest) := by
  by_cases hshort : c ∈ ['"', '\\', '\x08', '\x0c', '\n', '\r', '\t']
  · simp only [List.mem_cons, List.not_mem_nil, or_false] at hshort
    rcases hshort with rfl | rfl | rfl | rfl | rfl | rfl | rfl <;> exact text?_backslash rfl
  simp only [List.mem_cons, List.not_mem_nil, or_false, not_or] at hshort
  unfold escape
  simp only [hshort, if_false]
  by_cases hcontrol : c.toNat < 0x20
  · rw [if_pos hcontrol]
    refine text?_backslash ?_
    have hlow : isLowSurrogate c.toNat = false := by
      simp only [isLowSurrogate, Bool.and_eq_false_iff, decide_eq_false_iff_not]
      omega
    have hhigh : isHighSurrogate c.toNat = false := by
      simp only [isHighSurrogate, Bool.and_eq_false_iff, decide_eq_false_iff_not]
      omega
    change (unit? ('0' :: '0' :: Nat.digitChar (c.toNat / 16) :: Nat.digitChar (c.toNat % 16) ::
      rest)).bind _ = _
    rw [unit?_control hcontrol, Option.bind_some]
    simp only [hlow, hhigh, Bool.false_eq_true, if_false, Char.ofNat_toNat]
  · rw [if_neg hcontrol, List.singleton_append, text?]
    · rw [if_neg hcontrol]
      cases text? fuel rest <;> rfl
    · exact hshort.1
    · exact hshort.2.1

theorem text?_escaped (cs rest : List Char) : ∀ {fuel : Nat}, cs.length < fuel →
    text? fuel (cs.flatMap escape ++ '"' :: rest) = some (some cs, rest) := by
  induction cs with
  | nil =>
      intro fuel hfuel
      obtain ⟨fuel, rfl⟩ := Nat.exists_eq_add_of_lt hfuel
      rfl
  | cons c cs ih =>
      intro fuel hfuel
      obtain ⟨fuel, rfl⟩ : ∃ less, fuel = less + 1 := ⟨fuel - 1, by omega⟩
      rw [List.length_cons] at hfuel
      rw [List.flatMap_cons, List.append_assoc, text?_escape, ih (by omega)]
      rfl

theorem length_escape_pos (c : Char) : 0 < (escape c).length := by
  unfold escape
  split_ifs <;> simp

theorem length_le_length_escaped (cs : List Char) : cs.length ≤ (cs.flatMap escape).length := by
  induction cs with
  | nil => exact Nat.le_refl _
  | cons c cs ih =>
      have hc := length_escape_pos c
      rw [List.flatMap_cons, List.length_append, List.length_cons]
      omega

end Quoted

end Token

/-! ## Numbers -/

/-- One digit or more. -/
def IsDigits (s : List Char) : Prop := s ≠ [] ∧ ∀ c ∈ s, isDigit c

/-- Whether a number may go on with a character. -/
def continues (c : Char) : Bool := isDigit c || c = '.' || c = 'e' || c = 'E'

/-- Nothing that stands at the start of a text belongs to a number before it. -/
def Ends (s : List Char) : Prop := ∀ c ∈ s.head?, continues c = false

theorem IsDigits.exists_cons {s : List Char} (h : IsDigits s) :
    ∃ first rest, s = first :: rest ∧ isDigit first := by
  obtain ⟨first, rest, rfl⟩ := List.exists_cons_of_ne_nil h.1
  exact ⟨first, rest, rfl, h.2 first List.mem_cons_self⟩

theorem Ends.append {front rest : List Char} (hfront : Ends front) (hrest : Ends rest) :
    Ends (front ++ rest) := by
  cases front with
  | nil => exact hrest
  | cons c front => exact hfront

section Ends

variable {rest : List Char} (h : Ends rest)

include h

theorem Ends.isDigit_head {c : Char} (hc : c ∈ rest.head?) : isDigit c = false := by
  have hend := h c hc
  rw [continues, Bool.or_assoc, Bool.or_assoc, Bool.or_eq_false_iff] at hend
  exact hend.1

theorem Ends.head_ne {c : Char} (hc : continues c) (after : List Char) : rest ≠ c :: after := by
  rintro rfl
  have hend := h c rfl
  rw [hc] at hend
  cases hend

end Ends

namespace NumberText

/-- The fraction as it is written. -/
def fractionChars : Option (List Char) → List Char
  | none => []
  | some digits => '.' :: digits

/-- The exponent as it is written. -/
def exponentChars : Option (Bool × List Char) → List Char
  | none => []
  | some (down, digits) => 'e' :: (if down then '-' else '+') :: digits

/-- A number as it is written, without its sign. -/
def unsignedChars (t : NumberText) : List Char :=
  t.whole ++ (fractionChars t.fraction ++ exponentChars t.exponent)

/-- A number as it is written. -/
def chars (t : NumberText) : List Char := (if t.negative then ['-'] else []) ++ t.unsignedChars

/-- Every part has digits, and those before the point start with zero only for zero. -/
structure Regular (t : NumberText) : Prop where
  whole : IsDigits t.whole
  lead : t.whole = ['0'] ∨ t.whole.head? ≠ some '0'
  fraction : ∀ digits ∈ t.fraction, IsDigits digits
  exponent : ∀ e ∈ t.exponent, IsDigits e.2

end NumberText

namespace Token

section Number

variable {rest : List Char}

theorem digits?_append {digits : List Char} (h : IsDigits digits)
    (hrest : ∀ c ∈ rest.head?, isDigit c = false) :
    digits? (digits ++ rest) = some (digits, rest) := by
  have hempty : digits.isEmpty = false := List.isEmpty_eq_false_iff.mpr h.1
  rw [digits?, Word.spanDigits_append h.2 hrest]
  dsimp only
  rw [hempty, if_neg (by decide)]

theorem whole?_append {whole : List Char} (h : IsDigits whole)
    (hlead : whole = ['0'] ∨ whole.head? ≠ some '0')
    (hrest : ∀ c ∈ rest.head?, isDigit c = false) :
    whole? (whole ++ rest) = some (whole, rest) := by
  rcases hlead with rfl | hlead
  · have hnone : rest.head?.any isDigit = false := by
      cases hhead : rest.head? with
      | none => rfl
      | some c => exact hrest c hhead
    change (if rest.head?.any isDigit then none else some (['0'], rest)) = _
    rw [hnone, if_neg (by decide)]
  · obtain ⟨first, others, rfl, -⟩ := h.exists_cons
    have hzero : first ≠ '0' := fun hzero => hlead (congrArg some hzero)
    have hdigits : whole? (first :: others ++ rest) = digits? (first :: others ++ rest) := by
      unfold whole?
      split
      · rename_i hcons
        exact absurd (List.cons.inj hcons).1 hzero
      · rfl
    rw [hdigits, digits?_append h hrest]

theorem fraction?_append {fraction : Option (List Char)}
    (h : ∀ digits ∈ fraction, IsDigits digits)
    (hrest : ∀ c ∈ rest.head?, isDigit c = false ∧ c ≠ '.') :
    fraction? (NumberText.fractionChars fraction ++ rest) = some (fraction, rest) := by
  cases fraction with
  | none =>
      unfold fraction?
      split
      · rename_i hcons
        exact absurd rfl (hrest '.' (congrArg List.head? hcons)).2
      · rfl
  | some digits =>
      change (digits? (digits ++ rest)).map _ = _
      rw [digits?_append (h digits rfl) fun c hc => (hrest c hc).1]
      rfl

theorem exponent?_append {e : Option (Bool × List Char)} (h : ∀ e' ∈ e, IsDigits e'.2)
    (hrest : Ends rest) :
    exponent? (NumberText.exponentChars e ++ rest) = some (e, rest) := by
  cases e with
  | none =>
      unfold exponent?
      split
      · rename_i hcons
        exact absurd hcons (hrest.head_ne (by decide) _)
      · rename_i hcons
        exact absurd hcons (hrest.head_ne (by decide) _)
      · rfl
  | some e =>
      obtain ⟨down, digits⟩ := e
      have hdigits := digits?_append (h (down, digits) rfl) fun c hc => hrest.isDigit_head hc
      cases down
      · change (digits? (digits ++ rest)).map _ = _
        rw [hdigits]
        rfl
      · change (digits? (digits ++ rest)).map _ = _
        rw [hdigits]
        rfl

/-- A number is scanned up to its end. -/
theorem number?_unsignedChars {t : NumberText} (h : t.Regular) (hrest : Ends rest) :
    number? t.negative (t.unsignedChars ++ rest) = some (t, rest) := by
  obtain ⟨negative, whole, fraction, e⟩ := t
  obtain ⟨hwhole, hlead, hfraction, hexponent⟩ := h
  have hafter : ∀ c ∈ (NumberText.exponentChars e ++ rest).head?,
      isDigit c = false ∧ c ≠ '.' := by
    intro c hc
    cases e with
    | none => exact ⟨hrest.isDigit_head hc, fun hpoint => by
        rw [hpoint] at hc
        exact absurd (hrest '.' hc) (by decide)⟩
    | some e =>
        obtain rfl : 'e' = c := Option.some.inj hc
        exact ⟨by decide, by decide⟩
  have hbehind : ∀ c ∈ (NumberText.fractionChars fraction ++
      (NumberText.exponentChars e ++ rest)).head?, isDigit c = false := by
    intro c hc
    cases fraction with
    | none => exact (hafter c hc).1
    | some digits =>
        obtain rfl : '.' = c := Option.some.inj hc
        decide
  rw [number?, NumberText.unsignedChars]
  dsimp only at hwhole hlead hfraction hexponent ⊢
  rw [List.append_assoc, List.append_assoc, whole?_append hwhole hlead hbehind]
  dsimp only [Option.bind_eq_bind, Option.bind_some]
  rw [fraction?_append hfraction hafter]
  dsimp only [Option.bind_some]
  rw [exponent?_append hexponent hrest]
  rfl

theorem first?_of_isDigit {c : Char} (hc : isDigit c) (s : List Char) :
    first? (c :: s) = (number? false (c :: s)).map fun (t, rest) => (.number t, rest) := by
  have hbounds : '0'.toNat ≤ c.toNat ∧ c.toNat ≤ '9'.toNat := Char.isDigit_iff_toNat.mp hc
  have hnine : '9'.toNat = 57 := rfl
  have hzero : '0'.toNat = 48 := rfl
  obtain ⟨d, hd, hcode⟩ : ∃ d < 10, c.toNat = 48 + d := ⟨c.toNat - 48, by omega, by omega⟩
  rw [← Char.ofNat_toNat c, hcode]
  interval_cases d <;> rfl

theorem first?_chars {t : NumberText} (h : t.Regular) (hrest : Ends rest) :
    first? (t.chars ++ rest) = some (.number t, rest) := by
  have hnumber := number?_unsignedChars h hrest
  rw [NumberText.chars]
  cases hsign : t.negative with
  | true =>
      rw [hsign] at hnumber
      change (number? true (t.unsignedChars ++ rest)).map _ = _
      rw [hnumber]
      rfl
  | false =>
      rw [hsign] at hnumber
      obtain ⟨first, others, hwhole, hfirst⟩ := h.whole.exists_cons
      have hcons : t.unsignedChars ++ rest = first :: (others ++
          (NumberText.fractionChars t.fraction ++ NumberText.exponentChars t.exponent) ++ rest) := by
        rw [NumberText.unsignedChars, hwhole]
        rfl
      rw [if_neg (by decide), List.nil_append]
      rw [hcons] at hnumber ⊢
      rw [first?_of_isDigit hfirst, hnumber]
      rfl

end Number

end Token

/-! ## Fronts of texts -/

theorem Token.all?_mono : ∀ {fuel more : Nat} {s : List Char} {tokens : List Token},
    all? fuel s = some tokens → fuel ≤ more → all? more s = some tokens
  | _, _, [], _, h, _ => by
      rw [all?] at h ⊢
      exact h
  | 0, _, _ :: _, _, h, _ => by
      rw [all?] at h
      · cases h
      · exact List.cons_ne_nil _ _
  | fuel + 1, more, c :: s, tokens, h, hle => by
      obtain ⟨more, rfl⟩ : ∃ less, more = less + 1 := ⟨more - 1, by omega⟩
      rw [all?] at h ⊢
      split
      · rename_i hspace
        rw [if_pos hspace] at h
        exact all?_mono h (by omega)
      · rename_i hspace
        rw [if_neg hspace] at h
        cases hfirst : first? (c :: s) with
        | none =>
            rw [hfirst] at h
            cases h
        | some read =>
            obtain ⟨t, rest⟩ := read
            rw [hfirst] at h
            cases hrest : all? fuel rest with
            | none =>
                dsimp only [Option.bind_eq_bind, Option.bind_some] at h
                rw [hrest] at h
                cases h
            | some later =>
                dsimp only [Option.bind_eq_bind, Option.bind_some] at h ⊢
                rw [hrest] at h
                rw [all?_mono hrest (by omega : fuel ≤ more)]
                exact h

/-- A front of a text is scanned as tokens, whatever follows. -/
def Scans (front : List Char) (tokens : List Token) : Prop :=
  ∀ (rest : List Char) (later : List Token), tokens? rest = some later →
    tokens? (front ++ rest) = some (tokens ++ later)

/-- A front of a text is scanned as tokens if no number goes on behind it. -/
def ScansOpen (front : List Char) (tokens : List Token) : Prop :=
  ∀ (rest : List Char) (later : List Token), Ends rest → tokens? rest = some later →
    tokens? (front ++ rest) = some (tokens ++ later)

section Fronts

variable {front back : List Char} {tokens others : List Token} {t : Token}

theorem ScansOpen.tokens? (h : ScansOpen front tokens) : tokens? front = some tokens := by
  have hall := h [] [] nofun rfl
  rwa [List.append_nil, List.append_nil] at hall

theorem ScansOpen.append (hfront : ScansOpen front tokens) (hback : Scans back others)
    (hstops : ∀ rest, Ends (back ++ rest)) : Scans (front ++ back) (tokens ++ others) := by
  intro rest later hlater
  rw [List.append_assoc, List.append_assoc]
  exact hfront _ _ (hstops rest) (hback rest later hlater)

/-- One token, given that what follows does not change it. -/
theorem tokens?_cons {c : Char} {s rest : List Char} {later : List Token}
    (hspace : Token.isSpace c = false)
    (hfirst : Token.first? (c :: (s ++ rest)) = some (t, rest))
    (hlater : Json.tokens? rest = some later) :
    Json.tokens? (c :: s ++ rest) = some (t :: later) := by
  have hmono : Token.all? (s ++ rest).length rest = some later :=
    Token.all?_mono hlater (by rw [List.length_append]; omega)
  rw [Json.tokens?, List.cons_append, List.length_cons, Token.all?, if_neg (by rw [hspace]; decide),
    hfirst]
  dsimp only [Option.bind_eq_bind, Option.bind_some]
  rw [hmono]
  rfl

namespace Scans

theorem isOpen (h : Scans front tokens) : ScansOpen front tokens :=
  fun rest later _ hlater => h rest later hlater

theorem nil : Scans [] [] := fun _ _ hlater => hlater

theorem append (hfront : Scans front tokens) (hback : Scans back others) :
    Scans (front ++ back) (tokens ++ others) := by
  intro rest later hlater
  rw [List.append_assoc, List.append_assoc]
  exact hfront _ _ (hback rest later hlater)

theorem appendOpen (hfront : Scans front tokens) (hback : ScansOpen back others) :
    ScansOpen (front ++ back) (tokens ++ others) := by
  intro rest later hrest hlater
  rw [List.append_assoc, List.append_assoc]
  exact hfront _ _ (hback rest later hrest hlater)

theorem spaces (h : ∀ c ∈ front, Token.isSpace c) : Scans front [] := by
  intro rest later hlater
  induction front with
  | nil => exact hlater
  | cons c front ih =>
      obtain ⟨hc, hfront⟩ := List.forall_mem_cons.mp h
      rw [Json.tokens?, List.cons_append, List.length_cons, Token.all?, if_pos hc]
      exact ih hfront

theorem token {c : Char} {s : List Char} (hspace : Token.isSpace c = false)
    (h : ∀ rest, Token.first? (c :: (s ++ rest)) = some (t, rest)) : Scans (c :: s) [t] :=
  fun rest _ hlater => tokens?_cons hspace (h rest) hlater

/-! ### Parts of documents -/

theorem openList : Scans ['['] [.openList] := token rfl fun _ => rfl
theorem closeList : Scans [']'] [.closeList] := token rfl fun _ => rfl
theorem openObject : Scans ['\x7b'] [.openObject] := token rfl fun _ => rfl
theorem closeObject : Scans ['\x7d'] [.closeObject] := token rfl fun _ => rfl
theorem colon : Scans [':'] [.colon] := token rfl fun _ => rfl
theorem comma : Scans [','] [.comma] := token rfl fun _ => rfl
theorem null : Scans "null".toList [.null] := token rfl fun _ => rfl

theorem bool (b : Bool) : Scans (if b then "true" else "false").toList [.bool b] := by
  cases b with
  | false => exact token rfl fun _ => rfl
  | true => exact token rfl fun _ => rfl

theorem quoted (s : String) : Scans (quoted s) [.text (some s.toList)] := by
  refine token rfl fun rest => ?_
  have hlength := Token.length_le_length_escaped s.toList
  have htext := Token.text?_escaped s.toList rest
    (by rw [List.length_append]; omega :
      s.toList.length < (s.toList.flatMap escape ++ '"' :: rest).length + 1)
  rw [← List.singleton_append, ← List.append_assoc] at htext
  change (Token.text? _ (s.toList.flatMap escape ++ ['"'] ++ rest)).map _ = _
  exact congrArg (Option.map fun (t, rest) => (Token.text t, rest)) htext

end Scans

theorem isSpace_of_isDigit {c : Char} (h : isDigit c) : Token.isSpace c = false := by
  have hne : ∀ d, isDigit d = false → c ≠ d := fun d hd => Number.ne_of_isDigit h hd
  simp [Token.isSpace, hne ' ' rfl, hne '\n' rfl, hne '\t' rfl, hne '\r' rfl]

theorem ScansOpen.number {t : NumberText} (h : t.Regular) : ScansOpen t.chars [.number t] := by
  obtain ⟨first, others, hcons, hspace⟩ : ∃ first others, t.chars = first :: others ∧
      Token.isSpace first = false := by
    obtain ⟨first, others, hwhole, hfirst⟩ := h.whole.exists_cons
    rw [NumberText.chars, NumberText.unsignedChars, hwhole]
    split
    · exact ⟨'-', _, rfl, rfl⟩
    · exact ⟨first, _, rfl, isSpace_of_isDigit hfirst⟩
  intro rest later hrest hlater
  have hread := Token.first?_chars h hrest
  rw [hcons] at hread ⊢
  exact tokens?_cons hspace hread hlater

/-- No number goes on with spaces. -/
theorem ends_spaces {s : List Char} (h : ∀ c ∈ s, Token.isSpace c) (hback : Ends back) :
    Ends (s ++ back) := by
  refine Ends.append ?_ hback
  intro c hc
  have hspace := h c (List.mem_of_mem_head? hc)
  rw [Token.isSpace, Bool.or_assoc, Bool.or_assoc, Bool.or_eq_true, Bool.or_eq_true,
    Bool.or_eq_true] at hspace
  simp only [decide_eq_true_eq] at hspace
  rcases hspace with rfl | rfl | rfl | rfl <;> decide

end Fronts

end FieldCalculus.Json
