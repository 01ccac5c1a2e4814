import Mathlib.Data.Int.Basic
import Mathlib.Tactic

/-!
# Decimal texts

Printing and reading of integers and fixed-point decimals in base ten.  Every
printed number is read back as itself.
-/

namespace Vertix
namespace DecimalText

def digitChar (digit : ℕ) : Char := Char.ofNat (48 + digit)

def digitValue (c : Char) : Option ℕ :=
  if c.isDigit then some (c.toNat - 48) else none

/-- The `width` low-order decimal digits of a number. -/
def fixedDigits : ℕ → ℕ → List Char
  | 0, _ => []
  | width + 1, n => digitChar (n / 10 ^ width % 10) :: fixedDigits width n

def readDigits : ℕ → List Char → Option ℕ
  | acc, [] => some acc
  | acc, c :: rest =>
      match digitValue c with
      | some digit => readDigits (10 * acc + digit) rest
      | none => none

/-- The widest number a text is printed for, in digits. -/
def maxWidth : ℕ := 96

def natText (n : ℕ) : List Char :=
  match (fixedDigits maxWidth n).dropWhile (· == '0') with
  | [] => ['0']
  | digits => digits

def readNat (text : List Char) : Option ℕ :=
  if text.isEmpty then none else readDigits 0 text

def signedText (negative : Bool) (text : List Char) : List Char :=
  if negative then '-' :: text else text

def readSigned (read : List Char → Option ℕ) : List Char → Option ℤ
  | '-' :: rest => (read rest).map fun n : ℕ => -(n : ℤ)
  | text => (read text).map fun n : ℕ => (n : ℤ)

def intText (n : ℤ) : List Char := signedText (n < 0) (natText n.natAbs)

def readInt : List Char → Option ℤ := readSigned readNat

/-- A number scaled by `10 ^ places`, with all its places. -/
def decimalText (places : ℕ) (raw : ℤ) : List Char :=
  signedText (raw < 0)
    (natText (raw.natAbs / 10 ^ places) ++
      '.' :: fixedDigits places raw.natAbs)

def readPlaces (places : ℕ) (text : List Char) : Option ℕ :=
  let whole := text.takeWhile (· != '.')
  match text.dropWhile (· != '.') with
  | [] => (readNat whole).map fun n => n * 10 ^ places
  | _ :: fraction =>
      if whole.isEmpty || fraction.isEmpty || places < fraction.length then
        none
      else
        (readDigits 0 (whole ++ fraction)).map fun n =>
          n * 10 ^ (places - fraction.length)

def readDecimal (places : ℕ) : List Char → Option ℤ :=
  readSigned (readPlaces places)

/-! ## Reading back -/

theorem digitValue_digitChar {digit : ℕ} (hdigit : digit < 10) :
    digitValue (digitChar digit) = some digit := by
  interval_cases digit <;> decide

theorem readDigits_append (acc : ℕ) (left right : List Char) :
    readDigits acc (left ++ right) =
      (readDigits acc left).bind fun value => readDigits value right := by
  induction left generalizing acc with
  | nil => rfl
  | cons c rest ih =>
      simp only [List.cons_append, readDigits]
      cases digitValue c with
      | none => rfl
      | some digit => exact ih _

theorem readDigits_fixedDigits (acc width n : ℕ) :
    readDigits acc (fixedDigits width n) =
      some (acc * 10 ^ width + n % 10 ^ width) := by
  induction width generalizing acc with
  | zero => simp [fixedDigits, readDigits, Nat.mod_one]
  | succ width ih =>
      have hdigit : n / 10 ^ width % 10 < 10 := Nat.mod_lt _ (by omega)
      simp only [fixedDigits, readDigits, digitValue_digitChar hdigit, ih]
      rw [pow_succ, Nat.mod_mul]
      congr 1
      ring

@[simp] theorem fixedDigits_length (width n : ℕ) :
    (fixedDigits width n).length = width := by
  induction width with
  | zero => rfl
  | succ width ih => simp [fixedDigits, ih]

theorem readDigits_dropZeros (text : List Char) :
    readDigits 0 (text.dropWhile (· == '0')) = readDigits 0 text := by
  induction text with
  | nil => rfl
  | cons c rest ih =>
      by_cases hzero : c = '0'
      · subst hzero
        rw [List.dropWhile_cons_of_pos (by simp), ih]
        rfl
      · rw [List.dropWhile_cons_of_neg (by simpa using hzero)]

theorem readDigits_natText {n : ℕ} (hn : n < 10 ^ maxWidth) :
    readDigits 0 (natText n) = some n := by
  have hdrop := readDigits_dropZeros (fixedDigits maxWidth n)
  rw [readDigits_fixedDigits, Nat.mod_eq_of_lt hn, zero_mul, zero_add]
    at hdrop
  unfold natText
  split
  next hnil =>
    rw [hnil] at hdrop
    simp only [readDigits, Option.some.injEq] at hdrop
    subst hdrop
    rfl
  next => exact hdrop

theorem natText_ne_nil (n : ℕ) : natText n ≠ [] := by
  unfold natText
  split
  next => simp
  next hne => exact hne

theorem mem_fixedDigits_isDigit {width n : ℕ} {c : Char}
    (hmem : c ∈ fixedDigits width n) : c.isDigit = true := by
  have hdigits : ∀ digit < 10, (digitChar digit).isDigit = true := by
    intro digit hdigit
    interval_cases digit <;> decide
  induction width with
  | zero => simp [fixedDigits] at hmem
  | succ width ih =>
      rcases List.mem_cons.mp hmem with hhead | htail
      · rw [hhead]
        exact hdigits _ (Nat.mod_lt _ (by omega))
      · exact ih htail

theorem mem_natText_isDigit {n : ℕ} {c : Char} (hmem : c ∈ natText n) :
    c.isDigit = true := by
  unfold natText at hmem
  split at hmem
  next =>
    rw [List.mem_singleton.mp hmem]
    decide
  next =>
    exact mem_fixedDigits_isDigit (List.dropWhile_subset _ hmem)

theorem readSigned_signedText
    {read : List Char → Option ℕ} {text : List Char} {n : ℤ}
    (hhead : ∀ c ∈ text.head?, c.isDigit = true)
    (hread : read text = some n.natAbs) :
    readSigned read (signedText (n < 0) text) = some n := by
  unfold signedText
  by_cases hneg : n < 0
  · simp only [hneg, decide_true, if_true, readSigned, hread, Option.map_some,
      Option.some.injEq]
    omega
  · simp only [hneg, decide_false, Bool.false_eq_true, if_false]
    unfold readSigned
    split
    next rest heq =>
      have hdigit := hhead '-' (by simp)
      exact absurd hdigit (by decide)
    next =>
      simp only [hread, Option.map_some, Option.some.injEq]
      omega

theorem readInt_intText {n : ℤ} (hn : n.natAbs < 10 ^ maxWidth) :
    readInt (intText n) = some n := by
  apply readSigned_signedText
  · intro c hc
    exact mem_natText_isDigit (List.mem_of_mem_head? hc)
  · unfold readNat
    rw [if_neg (by simpa using natText_ne_nil _), readDigits_natText hn]

theorem readPlaces_text {places n : ℕ} (hplaces : 0 < places)
    (hn : n / 10 ^ places < 10 ^ maxWidth) :
    readPlaces places
      (natText (n / 10 ^ places) ++ '.' :: fixedDigits places n) =
        some n := by
  have hpoint : ∀ c ∈ natText (n / 10 ^ places), (c != '.') = true := by
    intro c hc
    have hdigit := mem_natText_isDigit hc
    rw [bne_iff_ne]
    intro heq
    rw [heq] at hdigit
    exact absurd hdigit (by decide)
  have hfixed : fixedDigits places n ≠ [] := by
    intro hnil
    have hlength := fixedDigits_length places n
    rw [hnil] at hlength
    simp at hlength
    omega
  unfold readPlaces
  rw [List.takeWhile_append_of_pos hpoint, List.dropWhile_append_of_pos hpoint]
  simp only [bne_self_eq_false, Bool.false_eq_true, not_false_eq_true,
    List.takeWhile_cons_of_neg, List.append_nil, List.dropWhile_cons_of_neg,
    fixedDigits_length, lt_irrefl, decide_false, Bool.or_false,
    Bool.or_eq_true, List.isEmpty_iff, natText_ne_nil, hfixed, or_self,
    if_false]
  rw [readDigits_append, readDigits_natText hn, Option.bind_some,
    readDigits_fixedDigits, Nat.sub_self, pow_zero, Option.map_some, mul_one,
    Nat.div_add_mod']

theorem readDecimal_decimalText {places : ℕ} {raw : ℤ} (hplaces : 0 < places)
    (hraw : raw.natAbs / 10 ^ places < 10 ^ maxWidth) :
    readDecimal places (decimalText places raw) = some raw := by
  apply readSigned_signedText
  · intro c hc
    have hne := natText_ne_nil (raw.natAbs / 10 ^ places)
    rw [List.head?_append_of_ne_nil _ hne] at hc
    exact mem_natText_isDigit (List.mem_of_mem_head? hc)
  · exact readPlaces_text hplaces hraw

end DecimalText
end Vertix
