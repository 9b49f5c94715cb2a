import Mathlib.Tactic.IntervalCases
import Vdag.Json.Printer
import Vdag.Json.Token

/-! Printed numbers and strings are read back as the tokens they were printed from, whatever follows them. -/
namespace Vdag.Json
open Token

/- What follows a value inside another one, or nothing. -/
def Breaks (rest : List Char) : Prop := ∀ c ∈ rest.head?, c = ',' ∨ c = ']' ∨ c = '\x7d'

section Numbers

def decimal (n : Nat) : List Nat := (Nat.toDigits 10 n).map (fun c => c.toNat - 48)

theorem decimalStep (n : Nat) : decimal n = if n < 10 then [n] else decimal (n / 10) ++ [n % 10] := by
  have digit : ∀ d, d < 10 → (Nat.digitChar d).toNat - 48 = d := by decide
  rw [decimal, Nat.toDigits_eq_if (by decide)]
  split
  · rename_i small
    rw [List.map_singleton, digit n small]
  · rw [List.map_append, List.map_singleton, digit _ (Nat.mod_lt n (by decide)), decimal]

theorem decimalHead (n : Nat) : ∃ first rest, decimal n = first :: rest ∧ (n ≠ 0 → first ≠ 0) ∧
    (n < 10 → rest = []) := by
  induction n using Nat.strongRecOn with
  | _ n ih =>
    rw [decimalStep]
    split
    · exact ⟨n, [], rfl, id, fun _ => rfl⟩
    · rename_i large
      obtain ⟨first, rest, found, leading, _⟩ := ih (n / 10) (by omega)
      exact ⟨first, rest ++ [n % 10], by rw [found]; rfl, fun _ => leading (by omega), fun small => absurd small large⟩

theorem digitsStop {rest : List Char} (breaks : Breaks rest) : digits rest = ([], rest) := by
  cases rest with
  | nil => rfl
  | cons c rest => rcases breaks c rfl with rfl | rfl | rfl <;> rfl

theorem digitsAppend {chars : List Char} {values : List Nat} (read : chars.map digit? = values.map some)
    {rest : List Char} (stop : digits rest = ([], rest)) : digits (chars ++ rest) = (values, rest) := by
  induction chars generalizing values with
  | nil =>
    cases values with
    | nil => exact stop
    | cons _ _ => cases read
  | cons c chars ih =>
    cases values with
    | nil => cases read
    | cons value values =>
      obtain ⟨first, later⟩ := List.cons.inj read
      rw [List.cons_append, digits, first, ih later]

theorem readDecimal (n : Nat) : (Nat.toDigits 10 n).map digit? = (decimal n).map some := by
  rw [decimal, List.map_map]
  refine List.map_congr_left (fun c member => ?_)
  have digit := Nat.isDigit_of_mem_toDigits (by decide) (by decide) member
  simp only [Char.isDigit, Bool.and_eq_true, decide_eq_true_eq] at digit
  exact if_pos digit

theorem gatherAppend {limit : Nat} {first later : List Nat} {before after : Nat}
    (gathered : Numeral.gather limit before first = (after, [])) :
    Numeral.gather limit before (first ++ later) = Numeral.gather limit after later := by
  induction first generalizing before with
  | nil => cases gathered; rfl
  | cons digit rest ih =>
    rw [Numeral.gather] at gathered
    rw [List.cons_append, Numeral.gather]
    split at gathered
    · rename_i fits
      rw [if_pos fits]
      exact ih gathered
    · cases gathered

theorem gatherDecimal {limit n : Nat} (fits : n < limit) : Numeral.gather limit 0 (decimal n) = (n, []) := by
  induction n using Nat.strongRecOn with
  | _ n ih =>
    rw [decimalStep]
    split
    · rw [Numeral.gather, if_pos (by omega), Numeral.gather, Nat.zero_mul, Nat.zero_add]
    · rw [gatherAppend (ih (n / 10) (by omega) (by omega)), Numeral.gather, if_pos (by omega), Numeral.gather]
      congr 1
      omega

theorem decimalInjective {a b : Nat} (same : Nat.toDigits 10 a = Nat.toDigits 10 b) : a = b := by
  have first := gatherDecimal (show a < a + b + 1 by omega)
  have second := gatherDecimal (show b < a + b + 1 by omega)
  rw [decimal, same, ← decimal, second] at first
  exact (Prod.mk.inj first).1.symm

theorem numberTailStop (negative : Bool) (whole : List Nat) {rest : List Char} (breaks : Breaks rest) :
    numberTail negative whole rest = some (⟨negative, whole, none, none⟩, rest) := by
  cases rest with
  | nil => rfl
  | cons c rest => rcases breaks c rfl with rfl | rfl | rfl <;> rfl

theorem numeralDecimal (negative : Bool) (n : Nat) {rest : List Char} (breaks : Breaks rest) :
    numeral negative (Nat.toDigits 10 n ++ rest) = some (⟨negative, decimal n, none, none⟩, rest) := by
  rw [numeral, digitsAppend (readDecimal n) (digitsStop breaks)]
  obtain ⟨first, later, found, leading, single⟩ := decimalHead n
  rw [found]
  split
  · rename_i empty
    cases empty
  · rename_i zero
    cases zero
    by_cases nothing : n = 0
    · cases single (by omega)
    · exact absurd rfl (leading nothing)
  · rename_i same
    cases same
    exact numberTailStop negative _ breaks

theorem digitChar {c : Char} (digit : c.isDigit = true) : ∃ d < 10, c = Nat.digitChar d := by
  simp only [Char.isDigit, Bool.and_eq_true, decide_eq_true_eq] at digit
  have bounds : 48 ≤ c.toNat ∧ c.toNat ≤ 57 := digit
  refine ⟨c.toNat - 48, by omega, Char.toNat_inj.mp ?_⟩
  rw [Nat.toNat_digitChar_of_lt_ten (by omega)]
  omega

theorem nextDigit {c : Char} (digit : c.isDigit = true) (more : List Char) :
    next (c :: more) = (numeral false (c :: more)).map (fun (found, left) => (.number found.value, left)) := by
  obtain ⟨d, small, rfl⟩ := digitChar digit
  interval_cases d <;> rfl

theorem nextDigits (n : Nat) (rest : List Char) :
    next (Nat.toDigits 10 n ++ rest) =
      (numeral false (Nat.toDigits 10 n ++ rest)).map (fun (found, left) => (.number found.value, left)) := by
  have digits := fun c => Nat.isDigit_of_mem_toDigits (b := 10) (n := n) (c := c) (by decide) (by decide)
  cases printed : Nat.toDigits 10 n with
  | nil => exact absurd printed Nat.toDigits_ne_nil
  | cons c more => exact nextDigit (digits c (printed ▸ List.mem_cons_self)) (more ++ rest)

theorem decimalValue {negative : Bool} {n : Nat} (fits : n < Numeral.wordLimit) (signed : negative = true → n ≠ 0)
    (whole : -0x8000000000000000 ≤ (if negative then -(n : Int) else n) ∧
      (if negative then -(n : Int) else n) < 0x10000000000000000) :
    Numeral.value ⟨negative, decimal n, none, none⟩ =
      some (.integer (if negative then -(n : Int) else n) whole) := by
  rw [Numeral.value, gatherDecimal fits]
  exact dif_pos ⟨whole, signed⟩

theorem integerLexes (value : Int) (fits : -0x8000000000000000 ≤ value ∧ value < 0x10000000000000000)
    {rest : List Char} (breaks : Breaks rest) :
    next ((Number.integer value fits).chars ++ rest) = some (.number (some (.integer value fits)), rest) := by
  cases value with
  | ofNat n =>
    have printed : (Number.integer (.ofNat n) fits).chars = Nat.toDigits 10 n := Nat.toList_repr
    have small : (n : Int) < 0x10000000000000000 := fits.2
    have value := @decimalValue false n (by unfold Numeral.wordLimit; omega) nofun fits
    rw [printed, nextDigits, numeralDecimal false n breaks, Option.map_some]
    dsimp only
    rw [value]
    rfl
  | negSucc n =>
    have printed : (Number.integer (.negSucc n) fits).chars = '-' :: Nat.toDigits 10 (n + 1) := by
      change ("-" ++ toString (n + 1)).toList = _
      rw [String.toList_append]
      exact congrArg ('-' :: ·) Nat.toList_repr
    have value := @decimalValue true (n + 1) (by unfold Numeral.wordLimit; omega) (fun _ => nofun) fits
    rw [printed, List.cons_append]
    change (numeral true _).map _ = _
    rw [numeralDecimal true (n + 1) breaks, Option.map_some]
    dsimp only
    rw [value]
    rfl

end Numbers

section Followed

variable {negative : Bool} {whole : List Nat} {fraction : Option (List Nat)} {number : Numeral}
  {text left rest : List Char}

theorem startFollowed {c : Char} (other : ∀ more, text ≠ c :: more) (inside : c ≠ ',' ∧ c ≠ ']' ∧ c ≠ '\x7d')
    (breaks : Breaks rest) : ∀ more, text ++ rest ≠ c :: more := by
  intro more same
  cases text with
  | nil =>
    rcases breaks c (by rw [show rest = c :: more from same]; rfl) with mark | mark | mark
    · exact inside.1 mark
    · exact inside.2.1 mark
    · exact inside.2.2 mark
  | cons first others =>
    cases same
    exact other others rfl

theorem digitsFollowed {found : List Nat} (read : digits text = (found, left)) (breaks : Breaks rest) :
    digits (text ++ rest) = (found, left ++ rest) := by
  induction text generalizing found left with
  | nil =>
    cases read
    exact digitsStop breaks
  | cons c text ih =>
    rw [digits] at read
    rw [List.cons_append, digits]
    cases digit : digit? c with
    | none =>
      rw [digit] at read
      cases read
      rfl
    | some d =>
      rw [digit] at read
      cases read
      rw [ih rfl]

def exponentPart (negative : Bool) (whole : List Nat) (fraction : Option (List Nat)) (text : List Char) :
    Option (Numeral × List Char) :=
  let exponentOf (below : Bool) (rest : List Char) : Option (Numeral × List Char) :=
    let (found, left) := digits rest
    if found.isEmpty then none else some (⟨negative, whole, fraction, some (below, found)⟩, left)
  match text with
  | 'e' :: '+' :: rest | 'E' :: '+' :: rest => exponentOf false rest
  | 'e' :: '-' :: rest | 'E' :: '-' :: rest => exponentOf true rest
  | 'e' :: rest | 'E' :: rest => exponentOf false rest
  | _ => some (⟨negative, whole, fraction, none⟩, text)

theorem tailPlain (other : ∀ more, text ≠ '.' :: more) :
    numberTail negative whole text = exponentPart negative whole none text := by
  unfold numberTail
  split
  · rename_i more
    exact absurd rfl (other more)
  · rfl

theorem tailPoint {found : List Nat} (read : digits text = (found, left)) :
    numberTail negative whole ('.' :: text) =
      if found.isEmpty then none else exponentPart negative whole (some found) left := by
  unfold numberTail
  simp only [read]
  cases found with
  | nil => rfl
  | cons first others => rfl

theorem exponentFollowed (read : exponentPart negative whole fraction text = some (number, left))
    (breaks : Breaks rest) : exponentPart negative whole fraction (text ++ rest) = some (number, left ++ rest) := by
  have inside : ∀ {below : Bool} {text : List Char},
      (if (digits text).1.isEmpty then none else
        some ((⟨negative, whole, fraction, some (below, (digits text).1)⟩ : Numeral), (digits text).2)) =
          some (number, left) →
      (if (digits (text ++ rest)).1.isEmpty then none else
        some ((⟨negative, whole, fraction, some (below, (digits (text ++ rest)).1)⟩ : Numeral),
          (digits (text ++ rest)).2)) = some (number, left ++ rest) := by
    intro below text found
    rw [digitsFollowed rfl breaks]
    split at found
    · cases found
    · rename_i some
      cases found
      exact if_neg some
  unfold exponentPart at read
  dsimp only at read
  split at read
  · exact inside read
  · exact inside read
  · exact inside read
  · exact inside read
  · rename_i more plus minus
    rw [List.cons_append, exponentPart.eq_5]
    · exact inside read
    · exact startFollowed plus (by decide) breaks
    · exact startFollowed minus (by decide) breaks
  · rename_i more plus minus
    rw [List.cons_append, exponentPart.eq_6]
    · exact inside read
    · exact startFollowed plus (by decide) breaks
    · exact startFollowed minus (by decide) breaks
  · rename_i small large
    cases read
    have smaller := startFollowed small (by decide) breaks
    have larger := startFollowed large (by decide) breaks
    exact exponentPart.eq_7 _ _ _ _ (fun _ => smaller _) (fun _ => larger _) (fun _ => smaller _) (fun _ => larger _)
      smaller larger

theorem tailFollowed (read : numberTail negative whole text = some (number, left)) (breaks : Breaks rest) :
    numberTail negative whole (text ++ rest) = some (number, left ++ rest) := by
  by_cases pointed : ∃ more, text = '.' :: more
  · obtain ⟨more, rfl⟩ := pointed
    cases listed : digits more with
    | mk found after =>
      rw [tailPoint listed] at read
      rw [List.cons_append, tailPoint (digitsFollowed listed breaks)]
      split at read
      · cases read
      · rename_i some
        rw [if_neg some]
        exact exponentFollowed read breaks
  · have other : ∀ more, text ≠ '.' :: more := fun more same => pointed ⟨more, same⟩
    rw [tailPlain other] at read
    rw [tailPlain (startFollowed other (by decide) breaks)]
    exact exponentFollowed read breaks

theorem numeralFollowed (read : numeral negative text = some (number, left)) (breaks : Breaks rest) :
    numeral negative (text ++ rest) = some (number, left ++ rest) := by
  cases listed : digits text with
  | mk found after =>
    rw [numeral, listed] at read
    rw [numeral, digitsFollowed listed breaks]
    split at read
    · cases read
    · cases read
    · rename_i whole after some led same
      cases same
      split
      · rename_i empty
        cases empty
        exact (some rfl).elim
      · rename_i zero
        cases zero
        exact (led _ _ rfl).elim
      · rename_i same
        cases same
        exact tailFollowed read breaks

theorem numeralDigit {c : Char} (read : numeral negative (c :: text) = some (number, left)) : c.isDigit = true := by
  by_contra other
  have none : digit? c = none := if_neg (fun digit => other (by
    simp only [Char.isDigit, Bool.and_eq_true, decide_eq_true_eq]
    exact digit))
  rw [numeral, digits, none] at read
  cases read

theorem numberFollowed {value : Option Number} (read : next text = some (.number value, left)) (breaks : Breaks rest) :
    next (text ++ rest) = some (.number value, left ++ rest) := by
  have mapped : ∀ {negative : Bool} {text : List Char}, 
      (numeral negative text).map (fun (found, left) => (Token.number found.value, left)) = some (.number value, left) →
      (numeral negative (text ++ rest)).map (fun (found, left) => (Token.number found.value, left)) =
        some (.number value, left ++ rest) := by
    intro negative text read
    obtain ⟨⟨number, after⟩, found, same⟩ := Option.map_eq_some_iff.mp read
    cases same
    rw [numeralFollowed found breaks]
    rfl
  unfold next at read
  split at read
  case h_11 =>
    obtain ⟨_, _, same⟩ := Option.map_eq_some_iff.mp read
    cases same
  case h_12 =>
    change (numeral true _).map _ = _
    exact mapped read
  case h_13 =>
    obtain ⟨_, found, _⟩ := Option.map_eq_some_iff.mp read
    cases text with
    | nil => cases found
    | cons c more =>
      rw [List.cons_append, nextDigit (numeralDigit found)]
      exact mapped read
  all_goals cases read

/- A number that comes back as it was, where its text stands alone. -/
def Number.faithful (number : Number) : Bool := decide (next number.chars = some (.number (some number), []))

theorem faithfulLexes {number : Number} (faithful : number.faithful = true) (breaks : Breaks rest) :
    next (number.chars ++ rest) = some (.number (some number), rest) :=
  numberFollowed (of_decide_eq_true faithful) breaks

theorem integerFaithful (value : Int) (fits : -0x8000000000000000 ≤ value ∧ value < 0x10000000000000000) :
    (Number.integer value fits).faithful = true := by
  have alone := @integerLexes value fits [] nofun
  rw [List.append_nil] at alone
  exact decide_eq_true alone

end Followed

section Strings

def Stands (unit : Nat) (piece : List Char) : Prop :=
  ∀ rest, stringBody (piece ++ rest) = (stringBody rest).map (fun (units, left) => (unit :: units, left))

theorem plainStands {c : Char} (quote : c ≠ '"') (back : c ≠ '\\') (shown : ¬ c.toNat < 0x20) : Stands c.toNat [c] := by
  intro rest
  rw [List.singleton_append, stringBody.eq_5 c rest quote (fun _ _ _ _ _ same => absurd same back)
    (fun _ _ same => absurd same back), if_neg (fun h => h.elim back shown)]
  cases stringBody rest <;> rfl

theorem shortStands {e : Char} {unit : Nat} (named : plainEscape? e = some unit) (short : e ≠ 'u') :
    Stands unit ['\\', e] := by
  intro rest
  rw [List.cons_append, List.singleton_append, stringBody.eq_4 e rest (fun _ _ _ _ _ same => absurd same short), named]
  cases stringBody rest <;> rfl

theorem hexOfDigit {d : Nat} (small : d < 16) : hexDigit? (Text.hexDigit d) = some d := by
  interval_cases d <;> rfl

theorem hexStands {unit : Nat} (small : unit < 0x20) :
    Stands unit ['\\', 'u', '0', '0', Text.hexDigit (unit / 16), Text.hexDigit (unit % 16)] := by
  intro rest
  have zero : hexDigit? '0' = some 0 := rfl
  have value : 0 * 4096 + 0 * 256 + unit / 16 * 16 + unit % 16 = unit := by omega
  simp only [List.cons_append, List.nil_append]
  rw [stringBody.eq_3, zero, hexOfDigit (by omega), hexOfDigit (by omega)]
  simp only [Option.bind_eq_bind, Option.bind_some, value]
  cases stringBody rest <;> rfl

theorem escapedStands (c : Char) : Stands c.toNat (escaped c) := by
  have code : ∀ d : Char, c.toNat = d.toNat → c = d := fun _ => Char.toNat_inj.mp
  unfold escaped
  split
  · subst c; exact shortStands rfl (by decide)
  · rename_i quote
    split
    · subst c; exact shortStands rfl (by decide)
    · rename_i back
      split
      · rename_i same; rw [same]; exact shortStands rfl (by decide)
      · split
        · rename_i same; rw [same]; exact shortStands rfl (by decide)
        · split
          · subst c; exact shortStands rfl (by decide)
          · split
            · subst c; exact shortStands rfl (by decide)
            · split
              · subst c; exact shortStands rfl (by decide)
              · split
                · rename_i small; exact hexStands small
                · rename_i shown; exact plainStands quote back shown

theorem bodyLexes (text rest : List Char) :
    stringBody (text.flatMap escaped ++ '"' :: rest) = some (text.map Char.toNat, rest) := by
  induction text with
  | nil => rfl
  | cons c text ih => rw [List.flatMap_cons, List.append_assoc, escapedStands, ih]; rfl

theorem assembleText (text : List Char) : assemble (text.map Char.toNat) = some text := by
  induction text with
  | nil => rfl
  | cons c text ih =>
    have apart : isHigh c.toNat = false ∧ isLow c.toNat = false := by
      have valid : c.toNat < 0xd800 ∨ 0xdfff < c.toNat ∧ c.toNat < 0x110000 := c.valid
      simp only [isHigh, isLow, Bool.and_eq_false_iff, decide_eq_false_iff_not]
      omega
    rw [List.map_cons, assemble.eq_def]
    dsimp only
    rw [apart.1, apart.2, ih, Char.ofNat_toNat]
    rfl

theorem stringLexes (text : String) (rest : List Char) :
    next (quotedChars text ++ rest) = some (.string (some text), rest) := by
  have opened : quotedChars text ++ rest = '"' :: (text.toList.flatMap escaped ++ '"' :: rest) := by
    simp [quotedChars]
  rw [opened]
  change (stringBody _).map _ = _
  rw [bodyLexes, Option.map_some]
  dsimp only
  rw [assembleText, Option.map_some, String.ofList_toList]

end Strings

end Vdag.Json
