import Mathlib.Tactic

/-!
# Bech32 texts

Byte strings are regrouped into five-bit values, followed by a six-value
checksum over the human-readable part and the data, and written in a 32-letter
alphabet.  Decoding recomputes the checksum.  Every encoded byte string decodes
to itself.
-/

namespace Vertix
namespace Bech32

def alphabet : List Char :=
  ['q', 'p', 'z', 'r', 'y', '9', 'x', '8', 'g', 'f', '2', 't', 'v', 'd', 'w',
    '0', 's', '3', 'j', 'n', '5', '4', 'k', 'h', 'c', 'e', '6', 'm', 'u', 'a',
    '7', 'l']

def letter (value : Fin 32) : Char := alphabet.get value

def letterValue (c : Char) : Option (Fin 32) :=
  let index := alphabet.idxOf c
  if hindex : index < 32 then some ⟨index, hindex⟩ else none

/-! ## Regrouping bits -/

def bits5 (value : Fin 32) : List Bool :=
  [value.val.testBit 4, value.val.testBit 3, value.val.testBit 2,
    value.val.testBit 1, value.val.testBit 0]

def value5 (a b c d e : Bool) : Fin 32 :=
  ⟨a.toNat * 16 + b.toNat * 8 + c.toNat * 4 + d.toNat * 2 + e.toNat, by
    have ha := a.toNat_lt
    have hb := b.toNat_lt
    have hc := c.toNat_lt
    have hd := d.toNat_lt
    have he := e.toNat_lt
    omega⟩

/-- Groups of five bits, the last one filled up with zeros. -/
def group5 : List Bool → List (Fin 32)
  | a :: b :: c :: d :: e :: rest => value5 a b c d e :: group5 rest
  | [a, b, c, d] => [value5 a b c d false]
  | [a, b, c] => [value5 a b c false false]
  | [a, b] => [value5 a b false false false]
  | [a] => [value5 a false false false false]
  | [] => []

def bits8 (byte : UInt8) : List Bool :=
  [byte.toNat.testBit 7, byte.toNat.testBit 6, byte.toNat.testBit 5,
    byte.toNat.testBit 4, byte.toNat.testBit 3, byte.toNat.testBit 2,
    byte.toNat.testBit 1, byte.toNat.testBit 0]

def value8 (a b c d e f g h : Bool) : UInt8 :=
  UInt8.ofNat (a.toNat * 128 + b.toNat * 64 + c.toNat * 32 + d.toNat * 16 +
    e.toNat * 8 + f.toNat * 4 + g.toNat * 2 + h.toNat)

/-- Groups of eight bits; an incomplete last group is dropped. -/
def group8 : List Bool → List UInt8
  | a :: b :: c :: d :: e :: f :: g :: h :: rest =>
      value8 a b c d e f g h :: group8 rest
  | _ => []

theorem bits5_value5 (a b c d e : Bool) :
    bits5 (value5 a b c d e) = [a, b, c, d, e] := by
  cases a <;> cases b <;> cases c <;> cases d <;> cases e <;> decide

/-- Regrouping loses no bit and appends fewer than five zeros. -/
theorem exists_flatMap_group5 (bits : List Bool) :
    ∃ padding : List Bool, padding.length < 5 ∧
      (group5 bits).flatMap bits5 = bits ++ padding := by
  fun_induction group5 bits with
  | case1 a b c d e rest ih =>
      obtain ⟨padding, hlength, hbits⟩ := ih
      exact ⟨padding, hlength, by simp [bits5_value5, hbits]⟩
  | case2 a b c d => exact ⟨[false], by simp, by simp [bits5_value5]⟩
  | case3 a b c => exact ⟨[false, false], by simp, by simp [bits5_value5]⟩
  | case4 a b => exact ⟨[false, false, false], by simp, by simp [bits5_value5]⟩
  | case5 a =>
      exact ⟨[false, false, false, false], by simp, by simp [bits5_value5]⟩
  | case6 => exact ⟨[], by simp, by simp⟩

theorem value8_bits8 (byte : UInt8) :
    value8 (byte.toNat.testBit 7) (byte.toNat.testBit 6)
      (byte.toNat.testBit 5) (byte.toNat.testBit 4) (byte.toNat.testBit 3)
      (byte.toNat.testBit 2) (byte.toNat.testBit 1) (byte.toNat.testBit 0) =
        byte := by
  have hbound := byte.toNat_lt
  have hround : ∀ n < 256,
      (n.testBit 7).toNat * 128 + (n.testBit 6).toNat * 64 +
        (n.testBit 5).toNat * 32 + (n.testBit 4).toNat * 16 +
        (n.testBit 3).toNat * 8 + (n.testBit 2).toNat * 4 +
        (n.testBit 1).toNat * 2 + (n.testBit 0).toNat = n := by
    intro n hn
    simp only [Nat.toNat_testBit]
    omega
  unfold value8
  rw [hround byte.toNat (by omega)]
  exact UInt8.ofNat_toNat

theorem group8_flatMap_bits8 (bytes : List UInt8) {padding : List Bool}
    (hpadding : padding.length < 8) :
    group8 (bytes.flatMap bits8 ++ padding) = bytes := by
  induction bytes with
  | nil =>
      unfold group8
      split
      next heq =>
        simp only [List.flatMap_nil, List.nil_append] at heq
        rw [heq] at hpadding
        simp at hpadding
        omega
      next => rfl
  | cons byte rest ih =>
      simp only [List.flatMap_cons, bits8, List.cons_append, List.nil_append,
        group8, value8_bits8]
      rw [ih]

/-! ## Checksum and text -/

def polymodStep (chk value : ℕ) : ℕ :=
  let top := chk >>> 25
  let chk := ((chk &&& 0x1ffffff) <<< 5) ^^^ value
  let chk := if top.testBit 0 then chk ^^^ 0x3b6a57b2 else chk
  let chk := if top.testBit 1 then chk ^^^ 0x26508e6d else chk
  let chk := if top.testBit 2 then chk ^^^ 0x1ea119fa else chk
  let chk := if top.testBit 3 then chk ^^^ 0x3d4233dd else chk
  if top.testBit 4 then chk ^^^ 0x2a1462b3 else chk

def hrpExpand (hrp : List Char) : List ℕ :=
  hrp.map (fun c => c.toNat >>> 5) ++ 0 :: hrp.map fun c => c.toNat &&& 31

def checksum (hrp : List Char) (values : List (Fin 32)) : List (Fin 32) :=
  let polymod :=
    ((hrpExpand hrp ++ values.map Fin.val ++ List.replicate 6 0).foldl
      polymodStep 1) ^^^ 1
  (List.range 6).map fun i => Fin.ofNat 32 (polymod >>> (5 * (5 - i)))

def encode (hrp : List Char) (bytes : List UInt8) : List Char :=
  let values := group5 (bytes.flatMap bits8)
  hrp ++ '1' :: (values ++ checksum hrp values).map letter

/-- Decode a lower-case text with the given human-readable part. -/
def decode (hrp : List Char) (text : List Char) : Option (List UInt8) := do
  guard ((hrp ++ ['1']).isPrefixOf text)
  let symbols ← (text.drop (hrp.length + 1)).mapM letterValue
  guard (6 ≤ symbols.length)
  let values := symbols.take (symbols.length - 6)
  guard (symbols.drop (symbols.length - 6) = checksum hrp values)
  return group8 (values.flatMap bits5)

theorem letterValue_letter (value : Fin 32) :
    letterValue (letter value) = some value := by
  revert value
  decide

theorem mapM_letterValue (values : List (Fin 32)) :
    (values.map letter).mapM letterValue = some values := by
  induction values with
  | nil => rfl
  | cons value rest ih => simp [letterValue_letter, ih]

theorem checksum_length (hrp : List Char) (values : List (Fin 32)) :
    (checksum hrp values).length = 6 := by
  simp [checksum]

theorem decode_encode (hrp : List Char) (bytes : List UInt8) :
    decode hrp (encode hrp bytes) = some bytes := by
  obtain ⟨padding, hlength, hbits⟩ :=
    exists_flatMap_group5 (bytes.flatMap bits8)
  have hstarts : (hrp ++ ['1']).isPrefixOf (encode hrp bytes) = true := by
    rw [List.isPrefixOf_iff_prefix, encode]
    simp
  have hdrop : (encode hrp bytes).drop (hrp.length + 1) =
      (group5 (bytes.flatMap bits8) ++
        checksum hrp (group5 (bytes.flatMap bits8))).map letter := by
    simp [encode]
  have hsize : (group5 (bytes.flatMap bits8) ++
      checksum hrp (group5 (bytes.flatMap bits8))).length - 6 =
        (group5 (bytes.flatMap bits8)).length := by
    simp [checksum_length]
  unfold decode
  rw [hdrop, mapM_letterValue]
  simp only [hstarts, guard_true, Option.pure_def, Option.bind_eq_bind,
    Option.bind_some, hsize, List.take_left', List.drop_left', hbits,
    group8_flatMap_bits8 bytes (show padding.length < 8 by omega)]
  simp [checksum_length]

end Bech32
end Vertix
